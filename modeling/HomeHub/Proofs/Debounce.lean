import HomeHub.Proofs.HoldState
import Mathlib.Data.List.Induction

/-!
# Debouncing

What a held stream with a pure predicate answers depends on the drained changes alone: the last edge
is delivered by the first visit at which its time has come, if the predicate holds behind it, and
nothing else is ever delivered. An error is passed on at once and is the last item, and the end waits
for the decision on the last edge.
-/

namespace HomeHub

namespace Hold

def ofPredicate (predicate : Option EntityState → Bool) (duration : Nat) : Hold :=
  .start (fun _ => predicate) duration

/-- The change at a place among the drained ones was the answer to one of the visits. -/
def Returned (predicate : Option EntityState → Bool) (duration : Nat) (visits : List Visit)
    (place : Nat) : Prop :=
  ∃ earlier visit taken change, earlier ++ [visit] <+: visits ∧
    ((ofPredicate predicate duration |>.after earlier).visit visit).1 = .item (.ok change) ∧
    LastEdge predicate (Visit.drained (earlier ++ [visit])) place taken change

section
variable {p : Option EntityState → Bool} {d : Nat} {earlier visits : List Visit} {visit : Visit}

theorem returned_concat {place : Nat} : Returned p d (earlier ++ [visit]) place ↔
    Returned p d earlier place ∨ ∃ taken change,
      ((ofPredicate p d |>.after earlier).visit visit).1 = .item (.ok change) ∧
      LastEdge p (Visit.drained (earlier ++ [visit])) place taken change := by
  constructor
  · rintro ⟨before, last, taken, change, hp, ha, hl⟩
    rcases List.prefix_concat_iff.1 hp with heq | hp
    · obtain ⟨rfl, rfl⟩ := List.append_singleton_inj.1 heq
      exact .inr ⟨taken, change, ha, hl⟩
    · exact .inl ⟨before, last, taken, change, hp, ha, hl⟩
  · rintro (⟨before, last, taken, change, hp, ha, hl⟩ | ⟨taken, change, ha, hl⟩)
    · exact ⟨before, last, taken, change, hp.trans (List.prefix_append _ _), ha, hl⟩
    · exact ⟨earlier, visit, taken, change, List.prefix_rfl, ha, hl⟩

theorem response_concat (h : Follows p d visit.now (Visit.drained earlier) (Returned p d earlier)
      (Visit.closing earlier) ((ofPredicate p d).after earlier)) :
    Response p d visit.now (Visit.drained (earlier ++ [visit])) (Returned p d earlier)
      (Visit.closing earlier) (Visit.closing (earlier ++ [visit]))
      (((ofPredicate p d).after earlier).visit visit) := by
  rw [Visit.drained_append, Visit.closing_append, Visit.drained_singleton, Visit.closing_singleton]
  exact h.response

theorem follows_after (ordered : visits.Pairwise fun first second => first.now ≤ second.now) {now : Nat}
    (hn : ∀ visit ∈ visits, visit.now ≤ now) :
    Follows p d now (Visit.drained visits) (Returned p d visits) (Visit.closing visits)
      ((ofPredicate p d).after visits) := by
  -- by the last visit: its response to the state before it is the state behind it
  induction visits using List.reverseRecOn generalizing now with
  | nil =>
    refine .waiting ⟨rfl, rfl, ?_, by simp [after, ofPredicate, start], ?_⟩ rfl rfl
    · rintro place ⟨earlier, visit, _, _, hp, -⟩
      simp at hp
    · rintro - place taken change ⟨hf, -⟩
      simp [Visit.drained] at hf
  | append_singleton earlier visit ih =>
    obtain ⟨ho, -, hv⟩ := List.pairwise_append.1 ordered
    have hr := response_concat (ih ho fun other hm => hv other hm visit List.mem_cons_self)
    have hf := hr.follows.later (hn visit (by simp))
    rw [after_append]
    have hg : GoneWith p (Visit.drained (earlier ++ [visit])) (Returned p d earlier)
        (((ofPredicate p d).after earlier).visit visit).1 = Returned p d (earlier ++ [visit]) :=
      funext fun place => propext returned_concat.symm
    rw [hg] at hf
    exact hf

theorem response_of_ordered {later : List Visit}
    (ordered : (earlier ++ visit :: later).Pairwise fun first second => first.now ≤ second.now) :
    Response p d visit.now (Visit.drained (earlier ++ [visit])) (Returned p d earlier)
      (Visit.closing earlier) (Visit.closing (earlier ++ [visit]))
      (((ofPredicate p d).after earlier).visit visit) := by
  obtain ⟨ho, -, hv⟩ := List.pairwise_append.1 ordered
  exact response_concat (follows_after ho fun other hm => hv other hm visit List.mem_cons_self)

-- ---------------------------------------------------------------------------
-- The order of what is delivered
-- ---------------------------------------------------------------------------

theorem drained_mono (h : earlier <+: visits) : Visit.drained earlier <+: Visit.drained visits := by
  obtain ⟨later, rfl⟩ := h
  rw [Visit.drained_append]
  exact List.prefix_append _ _

theorem Returned.isEdge {place : Nat} (h : Returned p d visits place) :
    ∃ taken change, (Visit.drained visits)[place]? = some (taken, change) ∧ IsEdge p change := by
  obtain ⟨earlier, visit, taken, change, hp, -, hl⟩ := h
  obtain ⟨later, heq⟩ := drained_mono hp
  have hlt := (List.getElem?_eq_some_iff.1 hl.found).1
  exact ⟨taken, change, by rw [← heq, List.getElem?_append_left hlt, hl.found], hl.isEdge⟩

theorem delivered_sublist (ordered : visits.Pairwise fun first second => first.now ≤ second.now)
    {bound : Nat} (hb : ∀ place, Returned p d visits place → place < bound) :
    (((ofPredicate p d).answers visits).filterMap Answer.change?).Sublist
      (((Visit.drained visits).take bound).map Prod.snd) := by
  -- by the last visit, for every bound: a delivered change is itself the bound for those before it
  induction visits using List.reverseRecOn generalizing bound with
  | nil => exact List.nil_sublist _
  | append_singleton earlier visit ih =>
    have ho := (List.pairwise_append.1 ordered).1
    have hr := response_of_ordered (p := p) (d := d) ordered
    have hgrow (bound : Nat) : (((Visit.drained earlier).take bound).map Prod.snd).Sublist
        (((Visit.drained (earlier ++ [visit])).take bound).map Prod.snd) := by
      have hp := (List.take_prefix bound _).trans (drained_mono (List.prefix_append earlier [visit]))
      exact (List.prefix_take_iff.2 ⟨hp, List.length_take_le _ _⟩).sublist.map _
    rw [answers_append, List.filterMap_append]
    cases ha : ((((ofPredicate p d).after earlier).visit visit).1).change? with
    | none =>
      simp only [answers, List.filterMap_cons, ha, List.filterMap_nil, List.append_nil]
      exact (ih ho fun place h => hb place (returned_concat.2 (.inl h))).trans (hgrow bound)
    | some change =>
      simp only [answers, List.filterMap_cons, ha, List.filterMap_nil]
      have ha := Answer.change?_eq_some.1 ha
      obtain ⟨-, place, taken, hl, -, -, hn⟩ := hr.item_iff.1 ha
      -- all that was returned are edges, so none stands behind the last one
      have hplace : ∀ other, Returned p d earlier other → other < place := fun other h => by
        have hreturned : Returned p d (earlier ++ [visit]) other := returned_concat.2 (.inl h)
        obtain ⟨taken', change', hf, he⟩ := hreturned.isEdge
        have hle := hl.le_of_isEdge hf he
        have hne : other ≠ place := fun heq => hn (heq ▸ h)
        omega
      have htake : ((Visit.drained (earlier ++ [visit])).take place).map Prod.snd ++ [change] =
          ((Visit.drained (earlier ++ [visit])).take (place + 1)).map Prod.snd := by
        simp [List.take_add_one, hl.found]
      have hlt := hb place (returned_concat.2 (.inr ⟨taken, change, ha, hl⟩))
      refine (((ih ho hplace).trans (hgrow place)).append_right [change]).trans ?_
      rw [htake]
      exact (List.take_prefix_take_left hlt).sublist.map _

end

-- ---------------------------------------------------------------------------
-- Changes that are no edges
-- ---------------------------------------------------------------------------

def edgesOnly (p : Option EntityState → Bool) (visit : Visit) : Visit :=
  { visit with batch := visit.batch.filter fun change => IsEdge p change }

/-- Two states that differ at most in the number of questions to the predicate. -/
structure Alike (p : Option EntityState → Bool) (first second : Hold) : Prop where
  predicate : first.predicate = fun _ => p
  other : second.predicate = fun _ => p
  duration : second.duration = first.duration
  pending : second.pending = first.pending
  sourceEnded : second.sourceEnded = first.sourceEnded
  finished : second.finished = first.finished

namespace Alike

variable {p : Option EntityState → Bool} {first second : Hold} {now : Nat} {change : StateChange}
  {keep : StateChange → Bool}

theorem ofPredicate (p : Option EntityState → Bool) (duration : Nat) :
    Alike p (Hold.ofPredicate p duration) (Hold.ofPredicate p duration) :=
  ⟨rfl, rfl, rfl, rfl, rfl, rfl⟩

theorem see_edge (h : Alike p first second) :
    Alike p (first.see now change) (second.see now change) :=
  { h with pending := by simp only [see, h.predicate, h.other, h.duration, h.pending] }

theorem see_plain (h : Alike p first second) (hn : ¬ IsEdge p change) :
    Alike p (first.see now change) second := by
  have heq : p change.old = p change.new := by simpa [IsEdge] using hn
  exact { h with pending := by simp [see, h.predicate, h.pending, heq] }

theorem settle (h : Alike p first second) :
    second.settle.1 = first.settle.1 ∧ Alike p first.settle.2 second.settle.2 := by
  unfold Hold.settle
  rw [h.sourceEnded, h.pending]
  split
  · exact ⟨rfl, h.predicate, h.other, h.duration, rfl, rfl, rfl⟩
  · exact ⟨rfl, h⟩

theorem expire (h : Alike p first second) :
    (second.expire now).1 = (first.expire now).1 ∧
      Alike p (first.expire now).2 (second.expire now).2 := by
  unfold Hold.expire
  rw [h.pending]
  cases first.pending with
  | none => exact h.settle
  | some waiting =>
    have hdecided : Alike p { first with asked := first.asked + 1, pending := none }
        { second with asked := second.asked + 1, pending := none } := { h with pending := rfl }
    have hq : second.predicate second.asked waiting.1.new =
        first.predicate first.asked waiting.1.new := by
      rw [h.predicate, h.other]
    simp only [hq]
    split
    · split
      · exact ⟨rfl, hdecided⟩
      · exact hdecided.settle
    · exact h.settle

section
variable (hkeep : ∀ change, keep change = false → ¬ IsEdge p change)
include hkeep

theorem seeAll (h : Alike p first second) (batch : List StateChange) :
    Alike p (batch.foldl (see now) first) ((batch.filter keep).foldl (see now) second) := by
  induction batch generalizing first second with
  | nil => exact h
  | cons change rest ih =>
    cases hk : keep change with
    | true =>
      rw [List.filter_cons_of_pos hk]
      exact ih h.see_edge
    | false =>
      rw [List.filter_cons_of_neg (by simp [hk])]
      exact ih (h.see_plain (hkeep change hk))

theorem drain (h : Alike p first second) (now : Nat) (batch : List StateChange) (ending : Ending) :
    Alike p (first.drain now batch ending) (second.drain now (batch.filter keep) ending) := by
  unfold Hold.drain
  rw [h.sourceEnded]
  split
  · exact h
  · exact { h.seeAll hkeep batch with sourceEnded := rfl }

/-- What is left out of a batch may be whatever is no edge. -/
theorem poll (h : Alike p first second) (now : Nat) (batch : List StateChange) (ending : Ending) :
    (second.poll now (batch.filter keep) ending).1 = (first.poll now batch ending).1 ∧
      Alike p (first.poll now batch ending).2 (second.poll now (batch.filter keep) ending).2 := by
  have hdrain := h.drain hkeep now batch ending
  simp only [Hold.poll, h.finished, h.sourceEnded]
  cases first.finished with
  | true => exact ⟨rfl, h⟩
  | false =>
    cases first.sourceEnded with
    | true => exact hdrain.expire
    | false =>
      cases he : ending <;> rw [he] at hdrain
      case failed error => exact ⟨rfl, { hdrain with pending := rfl, finished := rfl }⟩
      all_goals exact hdrain.expire

theorem answers (h : Alike p first second) (visits : List Visit) :
    second.answers (visits.map fun visit => { visit with batch := visit.batch.filter keep }) =
      first.answers visits := by
  induction visits generalizing first second with
  | nil => rfl
  | cons asked rest ih =>
    obtain ⟨ha, hn⟩ := h.poll hkeep asked.now asked.batch asked.ending
    simp only [List.map_cons, Hold.answers, Hold.visit, ha, ih hn]

end

end Alike

-- ---------------------------------------------------------------------------
-- The answers of a debounced stream
-- ---------------------------------------------------------------------------

/-- For visits in the order of time. A change is the answer to a visit exactly if no error has been
drained, it is the last edge so far, the predicate holds behind it, its time has come and it was not
returned before. An error is the answer to the visit that drains it; the end is the answer behind an
error, and behind the end of the source when the last edge has been returned or refused. Behind the
end or an error there is nothing. What is delivered stands in the order of the source, and changes
that are no edges have no influence. -/
theorem debounce (p : Option EntityState → Bool) (d : Nat) (earlier : List Visit) (visit : Visit)
    (later : List Visit)
    (ordered : (earlier ++ visit :: later).Pairwise fun first second => first.now ≤ second.now) :
    (∀ change, (((ofPredicate p d).after earlier).visit visit).1 = .item (.ok change) ↔
      (∀ error, Visit.closing (earlier ++ [visit]) ≠ .failed error) ∧
      ∃ place taken, LastEdge p (Visit.drained (earlier ++ [visit])) place taken change ∧
        p change.new = true ∧ taken + d ≤ visit.now ∧ ¬ Returned p d earlier place) ∧
    (∀ error, (((ofPredicate p d).after earlier).visit visit).1 = .item (.error error) ↔
      Visit.closing earlier = .waiting ∧ visit.ending = .failed error) ∧
    ((((ofPredicate p d).after earlier).visit visit).1 = .ended ↔
      (∃ error, Visit.closing earlier = .failed error) ∨
      Visit.closing (earlier ++ [visit]) = .ended ∧
        Settled p d visit.now (Visit.drained (earlier ++ [visit])) (Returned p d earlier)) ∧
    ((((ofPredicate p d).after earlier).visit visit).1 = .ended ∨
        (∃ error, (((ofPredicate p d).after earlier).visit visit).1 = .item (.error error)) →
      ∀ answer ∈ ((ofPredicate p d).after (earlier ++ [visit])).answers later, answer = .ended) ∧
    (((ofPredicate p d).answers (earlier ++ visit :: later)).filterMap Answer.change?).Sublist
      ((Visit.drained (earlier ++ visit :: later)).map Prod.snd) ∧
    (ofPredicate p d).answers ((earlier ++ visit :: later).map (edgesOnly p)) =
      (ofPredicate p d).answers (earlier ++ visit :: later) := by
  have hr := response_of_ordered (p := p) (d := d) ordered
  refine ⟨fun change => hr.item_iff, fun error => ?_, hr.ended_iff, fun h => ?_, ?_, ?_⟩
  · rw [hr.error_iff, Visit.closing_append, Visit.closing_singleton]
    refine and_congr_right fun hw => ?_
    rw [if_pos hw]
  · rw [after_append]
    exact answers_of_isOver (hr.isOver h) later
  · have hlt : ∀ place, Returned p d (earlier ++ visit :: later) place →
        place < (Visit.drained (earlier ++ visit :: later)).length := fun place h => by
      obtain ⟨_, _, hf, -⟩ := h.isEdge
      exact (List.getElem?_eq_some_iff.1 hf).1
    simpa using delivered_sublist ordered hlt
  · exact (Alike.ofPredicate p d).answers (fun change hn => of_decide_eq_false hn) _

def appeared : StateChange :=
  ⟨"light.a", none, some ⟨"light.a", some "on", .null, none, none, none⟩⟩

def appearance : Visit := ⟨0, [appeared], .waiting⟩

def lateVisit : Visit := ⟨7, [], .ended⟩

theorem debounce_appearance :
    ([appearance] ++ lateVisit :: []).Pairwise (fun first second => first.now ≤ second.now) ∧
      (((ofPredicate Option.isSome 5).after [appearance]).visit lateVisit).1 =
        .item (.ok appeared) := by
  have ordered : ([appearance] ++ lateVisit :: []).Pairwise
      fun first second => first.now ≤ second.now := by
    simp [appearance, lateVisit]
  have fresh : ¬ Returned Option.isSome 5 ([] ++ [appearance]) 0 := by
    rw [returned_concat]
    rintro (⟨_, _, _, _, hp, -⟩ | ⟨_, _, ha, -⟩)
    · simp at hp
    · have hw : ((ofPredicate Option.isSome 5).visit appearance).1 = .waiting := rfl
      exact absurd (hw.symm.trans ha) (by simp)
  have edge : LastEdge Option.isSome ([] ++ [(0, appeared)]) 0 0 appeared := .concat_edge (by decide)
  have decided := debounce Option.isSome 5 [appearance] lateVisit [] ordered
  exact ⟨ordered, (decided.1 appeared).2
    ⟨by simp [Visit.closing, appearance, lateVisit], 0, 0, edge, rfl, by decide, fresh⟩⟩

end Hold

end HomeHub
