import HomeHub.Proofs.Lists
import HomeHub.Stream.Hold

/-!
# Visits to a held stream

A held stream is visited again and again. What it has taken from its source by some visit, and how
the source has ended by then, can be told from the visits alone, and so can the last edge.
-/

namespace HomeHub

structure Visit where
  now : Nat
  batch : List StateChange
  ending : Ending

namespace Visit

/-- How the source has ended after visits. From a source that has ended nothing is taken. -/
def closing : List Visit → Ending
  | [] => .waiting
  | visit :: rest => if visit.ending = .waiting then closing rest else visit.ending

def drained : List Visit → List (Nat × StateChange)
  | [] => []
  | visit :: rest =>
    visit.batch.map (visit.now, ·) ++ if visit.ending = .waiting then drained rest else []

theorem closing_append (earlier later : List Visit) :
    closing (earlier ++ later) =
      if closing earlier = .waiting then closing later else closing earlier := by
  induction earlier with
  | nil => simp [closing]
  | cons visit rest ih =>
    by_cases h : visit.ending = .waiting
    · simp [closing, h, ih]
    · simp [closing, h]

theorem drained_append (earlier later : List Visit) :
    drained (earlier ++ later) =
      drained earlier ++ if closing earlier = .waiting then drained later else [] := by
  induction earlier with
  | nil => simp [closing, drained]
  | cons visit rest ih =>
    by_cases h : visit.ending = .waiting
    · simp [closing, drained, h, ih]
    · simp [closing, drained, h]

@[simp] theorem closing_singleton (visit : Visit) : closing [visit] = visit.ending := by
  by_cases h : visit.ending = .waiting <;> simp [closing, h]

@[simp] theorem drained_singleton (visit : Visit) :
    drained [visit] = visit.batch.map (visit.now, ·) := by
  simp [drained]

end Visit

namespace Hold

def visit (hold : Hold) (visit : Visit) : Answer × Hold :=
  hold.poll visit.now visit.batch visit.ending

def after (hold : Hold) (visits : List Visit) : Hold :=
  visits.foldl (fun hold visit => (hold.visit visit).2) hold

def answers : Hold → List Visit → List Answer
  | _, [] => []
  | hold, visit :: rest => (hold.visit visit).1 :: (hold.visit visit).2.answers rest

theorem after_append (hold : Hold) (earlier later : List Visit) :
    hold.after (earlier ++ later) = (hold.after earlier).after later :=
  List.foldl_append

theorem answers_append (hold : Hold) (earlier later : List Visit) :
    hold.answers (earlier ++ later) = hold.answers earlier ++ (hold.after earlier).answers later := by
  induction earlier generalizing hold with
  | nil => rfl
  | cons visit rest ih => simp only [List.cons_append, answers, ih]; rfl

end Hold

namespace Answer

def change? : Answer → Option StateChange
  | .item (.ok change) => some change
  | _ => none

theorem change?_eq_some {answer : Answer} {change : StateChange} :
    answer.change? = some change ↔ answer = .item (.ok change) := by
  unfold change?
  split <;> simp_all

end Answer

-- ---------------------------------------------------------------------------
-- Edges
-- ---------------------------------------------------------------------------

def IsEdge (predicate : Option EntityState → Bool) (change : StateChange) : Prop :=
  predicate change.old ≠ predicate change.new

instance (predicate : Option EntityState → Bool) : DecidablePred (IsEdge predicate) :=
  fun _ => inferInstanceAs (Decidable (_ ≠ _))

/-- The last edge of drained changes: its place, when it was taken in, and the edge itself. -/
structure LastEdge (predicate : Option EntityState → Bool) (drained : List (Nat × StateChange))
    (place taken : Nat) (change : StateChange) : Prop where
  found : drained[place]? = some (taken, change)
  isEdge : IsEdge predicate change
  last : ∀ later other, place < later → drained[later]? = some other → ¬ IsEdge predicate other.2

namespace LastEdge

variable {p : Option EntityState → Bool} {drained : List (Nat × StateChange)}
  {place other taken taken' : Nat} {change change' : StateChange}

theorem unique (h : LastEdge p drained place taken change)
    (h' : LastEdge p drained other taken' change') :
    other = place ∧ taken' = taken ∧ change' = change := by
  obtain hlt | rfl | hlt := Nat.lt_trichotomy place other
  · exact (h.last other _ hlt h'.found h'.isEdge).elim
  · obtain ⟨rfl, rfl⟩ := Prod.mk.inj (Option.some.inj (h.found.symm.trans h'.found))
    exact ⟨rfl, rfl, rfl⟩
  · exact (h'.last place _ hlt h.found h.isEdge).elim

theorem le_of_isEdge (h : LastEdge p drained place taken change)
    (hf : drained[other]? = some (taken', change')) (he : IsEdge p change') : other ≤ place :=
  Nat.le_of_not_lt fun hlt => h.last other _ hlt hf he

theorem concat_edge (he : IsEdge p change) :
    LastEdge p (drained ++ [(taken, change)]) drained.length taken change where
  found := by simp
  isEdge := he
  last := fun later _ hlt hf => by
    have hl := (List.getElem?_eq_some_iff.1 hf).1
    rw [List.length_append, List.length_singleton] at hl
    omega

theorem concat_plain (hn : ¬ IsEdge p change') :
    LastEdge p (drained ++ [(taken', change')]) place taken change ↔
      LastEdge p drained place taken change := by
  constructor
  · rintro ⟨hf, he, hl⟩
    refine ⟨?_, he, fun later other hlt h => hl later other hlt ?_⟩
    · rcases getElem?_concat_eq_some.1 hf with hf | ⟨-, heq⟩
      · exact hf
      · cases heq
        exact (hn he).elim
    · exact getElem?_concat_eq_some.2 (.inl h)
  · rintro ⟨hf, he, hl⟩
    refine ⟨getElem?_concat_eq_some.2 (.inl hf), he, fun later other hlt h => ?_⟩
    rcases getElem?_concat_eq_some.1 h with h | ⟨-, rfl⟩
    · exact hl later other hlt h
    · exact hn

end LastEdge

end HomeHub
