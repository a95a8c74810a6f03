import HomeHub.Proofs.Interleaving
import HomeHub.Proofs.Questions
import Mathlib.Algebra.GroupWithZero.Nat

/-!
# Branches of a merge

A question to a merge is passed on to some of its branches, to each of them at most once. An item comes
from one of them, and if there is none, all of them have nothing for now or have ended.
-/

namespace HomeHub

-- ---------------------------------------------------------------------------
-- Branches that are asked
-- ---------------------------------------------------------------------------

structure Lane where
  branch : Stream
  questions : List (Instant × Nat)

namespace Lane

def answers (lane : Lane) : List Answer := (lane.branch.answers lane.questions).flatten

def hasEnded (lane : Lane) : Bool := lane.answers.any Answer.isEnded

def stream (lane : Lane) : Stream := lane.branch.behind lane.questions

/-- What a merge keeps of the branch. One that has ended is left out. -/
def kept? (lane : Lane) : Option Stream := if lane.hasEnded then none else some lane.stream

end Lane

/-- A branch while it is asked in an instant, so many questions so far. -/
structure Cursor where
  lane : Lane
  instant : Instant
  count : Nat

namespace Cursor

def close (cursor : Cursor) : Lane :=
  ⟨cursor.lane.branch, cursor.lane.questions ++ [(cursor.instant, cursor.count)]⟩

def position (cursor : Cursor) : Branch Stream :=
  (cursor.lane.stream.inside cursor.instant).behind cursor.count

def replies (cursor : Cursor) : List Answer :=
  (cursor.lane.stream.inside cursor.instant).replies cursor.count

def answers (cursor : Cursor) : List Answer := cursor.lane.answers ++ cursor.replies

def kept? (cursor : Cursor) : Option (Branch Stream) :=
  if cursor.answers.any Answer.isEnded then none else some cursor.position

def ask (cursor : Cursor) : Cursor := { cursor with count := cursor.count + 1 }

variable {cursor : Cursor} {branch : Branch Stream}

theorem answers_close (cursor : Cursor) : cursor.close.answers = cursor.answers := by
  rw [close, Lane.answers, Stream.answers_concat, List.flatten_append]
  simp [answers, replies, Lane.answers, Lane.stream]

theorem stream_close (cursor : Cursor) : cursor.close.stream = cursor.position.state :=
  Stream.behind_concat ..

theorem kept?_close (cursor : Cursor) : cursor.close.kept? = cursor.kept?.map Branch.state := by
  rw [Lane.kept?, Lane.hasEnded, answers_close, stream_close, kept?]
  split <;> rfl

theorem answers_ask (cursor : Cursor) :
    cursor.ask.answers = cursor.answers ++ [cursor.position.reply] :=
  (List.append_assoc ..).symm

theorem getLast?_answers (cursor : Cursor) {answer : Answer}
    (h : cursor.replies.getLast? = some answer) : cursor.answers.getLast? = some answer := by
  rw [answers, List.getLast?_append, h, Option.some_or]

theorem kept?_eq_some : cursor.kept? = some branch ↔
    .ended ∉ cursor.answers ∧ cursor.position = branch := by
  rw [kept?, Option.ite_none_left_eq_some, Answer.any_isEnded, Option.some.injEq]

theorem kept?_eq_none : cursor.kept? = none ↔ .ended ∈ cursor.answers := by
  rw [kept?, ← Answer.any_isEnded]
  split <;> simp_all

theorem kept?_ask (h : cursor.kept? = some branch) :
    cursor.ask.kept? = if branch.reply.isEnded then none else some branch.next := by
  obtain ⟨hopen, rfl⟩ := kept?_eq_some.1 h
  have hnone : cursor.answers.any Answer.isEnded = false := by
    rwa [← Bool.not_eq_true, Answer.any_isEnded]
  rw [kept?, answers_ask, List.any_append, hnone, Bool.false_or, List.any_cons, List.any_nil,
    Bool.or_false]
  rfl

def origin (cursor : Cursor) : Lane × Instant := (cursor.lane, cursor.instant)

/-- The branch has ended, or its last answer in this instant is that it has nothing for now. -/
def IsResting (cursor : Cursor) : Prop :=
  .ended ∈ cursor.answers ∨ cursor.replies.getLast? = some .waiting

/-- One more question of the merge at most, with the answers to it. -/
inductive Goes : Cursor → List Answer × Cursor → Prop where
  | passed (cursor : Cursor) : Goes cursor ([], cursor)
  | asked {cursor : Cursor} {branch : Branch Stream} (h : cursor.kept? = some branch) :
      Goes cursor ([branch.reply], cursor.ask)

theorem Goes.origin {outcome : List Answer × Cursor} (h : cursor.Goes outcome) :
    outcome.2.origin = cursor.origin := by
  cases h <;> rfl

theorem Goes.answers {outcome : List Answer × Cursor} (h : cursor.Goes outcome) :
    outcome.2.answers = cursor.answers ++ outcome.1 := by
  cases h with
  | passed => exact (List.append_nil _).symm
  | asked h =>
    obtain ⟨-, rfl⟩ := kept?_eq_some.1 h
    exact answers_ask cursor

end Cursor

-- ---------------------------------------------------------------------------
-- One question
-- ---------------------------------------------------------------------------

namespace Branch

variable {σ : Type}

def size (branches : List (Branch σ)) : Nat := (branches.map fun branch => branch.run.steps.length).sum

theorem size_cons (branch : Branch σ) (others : List (Branch σ)) :
    size (branch :: others) = branch.run.steps.length + size others := rfl

def itemsOf (beat : Option Beat) : List Item := (beat.bind Beat.item?).toList

/-- A merge that asks its first branch goes by what that branch replies. -/
theorem ask_cons (branch : Branch σ) (others : List (Branch σ)) :
    (∃ item, branch.reply = .item item ∧
      ask (branch :: others) = (some (.item item), branch.next :: others)) ∨
    (branch.reply = .waiting ∧ ∃ beat, ask (branch :: others) = (beat, branch.next :: (ask others).2) ∧
      itemsOf beat = itemsOf (ask others).1) ∨
    branch.reply = .ended ∧ ask (branch :: others) = ask others := by
  obtain ⟨state, ⟨steps, rest, ended⟩⟩ := branch
  rcases steps with _ | ⟨⟨item | _, next⟩, steps⟩
  · cases ended with
    | true => exact .inr (.inr ⟨rfl, rfl⟩)
    | false => exact .inr (.inl ⟨rfl, _, rfl, rfl⟩)
  · exact .inl ⟨item, rfl, rfl⟩
  · refine .inr (.inl ⟨rfl, _, rfl, ?_⟩)
    generalize (ask others).1 = beat
    rcases beat with _ | _ | _ <;> rfl

theorem size_ask (branches : List (Branch σ)) :
    size (ask branches).2 + (if (ask branches).1.isSome then 1 else 0) ≤ size branches := by
  induction branches with
  | nil => simp [ask, size]
  | cons branch others ih =>
    obtain ⟨state, ⟨steps, rest, ended⟩⟩ := branch
    rcases steps with _ | ⟨⟨item | _, next⟩, steps⟩
    · cases ended with
      | true =>
        rw [size_cons, List.length_nil, Nat.zero_add]
        exact ih
      | false =>
        simp only [ask, size_cons, List.length_nil, Nat.zero_add, Bool.false_eq_true, if_false]
        exact ih
    · simp only [ask, size_cons, List.length_cons, Option.isSome_some, if_true]
      omega
    · have hleft : size (ask others).2 ≤ size others := Nat.le_of_add_right_le ih
      have hbeat : (answer (some .pause) (ask others).1).isSome = true := by
        generalize (ask others).1 = beat
        rcases beat with _ | _ | _ <;> rfl
      simp only [ask, size_cons, List.length_cons, hbeat, if_true]
      omega

/-- A merge that starts with some branch goes on with the first one unless it has an item by then. -/
theorem askFrom_cases (start : Nat) (branches : List (Branch σ)) :
    (∃ item, (ask (branches.drop start)).1 = some (.item item) ∧
      askFrom start branches =
        (some (.item item), branches.take start ++ (ask (branches.drop start)).2)) ∨
    itemsOf (ask (branches.drop start)).1 = [] ∧
      ∃ beat, askFrom start branches =
          (beat, (ask (branches.take start)).2 ++ (ask (branches.drop start)).2) ∧
        itemsOf beat = itemsOf (ask (branches.take start)).1 ∧
        (beat.isSome = true → (ask (branches.drop start)).1.isSome = true ∨
          (ask (branches.take start)).1.isSome = true) := by
  unfold askFrom
  generalize ask (branches.drop start) = first, (ask (branches.take start)) = second
  obtain ⟨first, back⟩ := first
  obtain ⟨second, front⟩ := second
  rcases first with _ | item | _
  · refine .inr ⟨rfl, _, rfl, ?_, ?_⟩ <;> rcases second with _ | _ | _ <;> simp [answer]
  · exact .inl ⟨item, rfl, rfl⟩
  · refine .inr ⟨rfl, _, rfl, ?_, ?_⟩ <;>
      rcases second with _ | _ | _ <;> simp [answer, itemsOf, Beat.item?]

theorem size_append (first second : List (Branch σ)) : size (first ++ second) = size first + size second := by
  simp [size]

theorem size_askFrom {start : Nat} {branches : List (Branch σ)}
    (h : (askFrom start branches).1.isSome = true) :
    size (askFrom start branches).2 < size branches := by
  have hsize : size (branches.take start) + size (branches.drop start) = size branches := by
    rw [← size_append, List.take_append_drop]
  have hfront := size_ask (branches.take start)
  have hback := size_ask (branches.drop start)
  rcases askFrom_cases start branches with ⟨item, hi, hask⟩ | ⟨-, beat, hask, -, hsome⟩
  · rw [hi, Option.isSome_some, if_pos rfl] at hback
    rw [hask, size_append]
    omega
  · rw [hask] at h ⊢
    rw [size_append]
    rcases hsome h with hs | hs
    · rw [if_pos hs] at hback
      omega
    · rw [if_pos hs] at hfront
      omega

theorem ask_ne_nil {branches : List (Branch σ)} (h : (ask branches).1.isSome = true) :
    (ask branches).2 ≠ [] := by
  induction branches with
  | nil => cases h
  | cons branch others ih =>
    rcases ask_cons branch others with ⟨item, -, hask⟩ | ⟨-, beat, hask, -⟩ | ⟨-, hask⟩
    · rw [hask]
      exact List.cons_ne_nil _ _
    · rw [hask]
      exact List.cons_ne_nil _ _
    · rw [hask] at h ⊢
      exact ih h

theorem askFrom_ne_nil {start : Nat} {branches : List (Branch σ)}
    (h : (askFrom start branches).1.isSome = true) : (askFrom start branches).2 ≠ [] := by
  rcases askFrom_cases start branches with ⟨item, hi, hask⟩ | ⟨-, beat, hask, -, hsome⟩
  · rw [hask]
    exact List.append_ne_nil_of_right_ne_nil _ (ask_ne_nil (by rw [hi]; rfl))
  · rw [hask] at h ⊢
    rcases hsome h with hs | hs
    · exact List.append_ne_nil_of_right_ne_nil _ (ask_ne_nil hs)
    · exact List.append_ne_nil_of_left_ne_nil (ask_ne_nil hs) _

end Branch

/-- What a question of a merge does to its branches: each of them is asked at most once, an item comes
from one of them, and all of them rest if there is none. -/
structure Outcomes (cursors : List Cursor) (items : List Item) (left : List (Branch Stream))
    (outcomes : List (List Answer × Cursor)) : Prop where
  goes : List.Forall₂ Cursor.Goes cursors outcomes
  kept : (outcomes.map Prod.snd).filterMap Cursor.kept? = left
  interleaved : Interleaves (outcomes.map fun outcome => Answer.given outcome.1) items
  resting : items = [] → ∀ outcome ∈ outcomes, outcome.2.IsResting

namespace Outcomes

variable {cursor : Cursor} {branch : Branch Stream} {rest cursors : List Cursor} {items : List Item}
  {left : List (Branch Stream)} {outcomes : List (List Answer × Cursor)}

theorem forall₂_passed (cursors : List Cursor) :
    List.Forall₂ Cursor.Goes cursors (cursors.map ([], ·)) :=
  List.forall₂_map_right_iff.2 (List.forall₂_same.2 fun cursor _ => .passed cursor)

theorem map_snd_passed (cursors : List Cursor) :
    (cursors.map fun cursor => (([] : List Answer), cursor)).map Prod.snd = cursors := by
  rw [List.map_map]
  exact List.map_id _

theorem passed (hk : cursors.filterMap Cursor.kept? = left)
    (h : ∀ cursor ∈ cursors, cursor.IsResting) : Outcomes cursors [] left (cursors.map ([], ·)) where
  goes := forall₂_passed cursors
  kept := by rw [map_snd_passed, hk]
  interleaved := by
    rw [List.map_map]
    exact .nil (by simp [Answer.given])
  resting _ := List.forall_mem_map.2 h

theorem gone (h : Outcomes rest items left outcomes) (hk : cursor.kept? = none) :
    Outcomes (cursor :: rest) items left (([], cursor) :: outcomes) where
  goes := .cons (.passed cursor) h.goes
  kept := by rw [List.map_cons, List.filterMap_cons_none hk, h.kept]
  interleaved := h.interleaved.cons_nil
  resting hn := List.forall_mem_cons.2 ⟨.inl (Cursor.kept?_eq_none.1 hk), h.resting hn⟩

theorem item {found : Item} (hk : cursor.kept? = some branch) (hr : branch.reply = .item found) :
    Outcomes (cursor :: rest) [found] (branch.next :: rest.filterMap Cursor.kept?)
      (([branch.reply], cursor.ask) :: rest.map ([], ·)) where
  goes := .cons (.asked hk) (forall₂_passed rest)
  kept := by
    have hkept : cursor.ask.kept? = some branch.next := by rw [Cursor.kept?_ask hk, hr]; rfl
    rw [List.map_cons, List.filterMap_cons_some hkept, map_snd_passed]
  interleaved := by
    rw [List.map_cons, hr]
    exact .single found (by simp [Answer.given])
  resting hn := by simp at hn

theorem waiting (h : Outcomes rest items left outcomes) (hk : cursor.kept? = some branch)
    (hr : branch.reply = .waiting) :
    Outcomes (cursor :: rest) items (branch.next :: left)
      (([branch.reply], cursor.ask) :: outcomes) where
  goes := .cons (.asked hk) h.goes
  kept := by
    have hkept : cursor.ask.kept? = some branch.next := by rw [Cursor.kept?_ask hk, hr]; rfl
    rw [List.map_cons, List.filterMap_cons_some hkept, h.kept]
  interleaved := by
    rw [List.map_cons, hr]
    exact h.interleaved.cons_nil
  resting hn := by
    refine List.forall_mem_cons.2 ⟨.inr ?_, h.resting hn⟩
    obtain ⟨-, rfl⟩ := Cursor.kept?_eq_some.1 hk
    exact List.getLast?_concat.trans (congrArg some hr)

theorem ended (h : Outcomes rest items left outcomes) (hk : cursor.kept? = some branch)
    (hr : branch.reply = .ended) :
    Outcomes (cursor :: rest) items left (([branch.reply], cursor.ask) :: outcomes) where
  goes := .cons (.asked hk) h.goes
  kept := by
    have hkept : cursor.ask.kept? = none := by rw [Cursor.kept?_ask hk, hr]; rfl
    rw [List.map_cons, List.filterMap_cons_none hkept, h.kept]
  interleaved := by
    rw [List.map_cons, hr]
    exact h.interleaved.cons_nil
  resting hn := by
    have hkept : cursor.ask.kept? = none := by rw [Cursor.kept?_ask hk, hr]; rfl
    exact List.forall_mem_cons.2 ⟨.inl (Cursor.kept?_eq_none.1 hkept), h.resting hn⟩

theorem exists_ask (cursors : List Cursor) :
    ∃ outcomes, Outcomes cursors
      (Branch.itemsOf (Branch.ask (cursors.filterMap Cursor.kept?)).1)
      (Branch.ask (cursors.filterMap Cursor.kept?)).2 outcomes := by
  induction cursors with
  | nil => exact ⟨[], .nil, rfl, .nil (by simp), by simp⟩
  | cons cursor rest ih =>
    obtain ⟨outcomes, h⟩ := ih
    cases hk : cursor.kept? with
    | none =>
      rw [List.filterMap_cons_none hk]
      exact ⟨_, h.gone hk⟩
    | some branch =>
      rw [List.filterMap_cons_some hk]
      rcases Branch.ask_cons branch (rest.filterMap Cursor.kept?) with
        ⟨item, hr, hask⟩ | ⟨hr, beat, hask, hbeat⟩ | ⟨hr, hask⟩
      · rw [hask]
        exact ⟨_, .item hk hr⟩
      · rw [hask, hbeat]
        exact ⟨_, h.waiting hk hr⟩
      · rw [hask]
        exact ⟨_, h.ended hk hr⟩

/-- It starts with any of them and goes on with the first. -/
theorem exists_askFrom (cursors : List Cursor) (start : Nat) :
    ∃ outcomes, Outcomes cursors
      (Branch.itemsOf (Branch.askFrom start (cursors.filterMap Cursor.kept?)).1)
      (Branch.askFrom start (cursors.filterMap Cursor.kept?)).2 outcomes := by
  obtain ⟨front, back, rfl, hfront, hback⟩ := List.filterMap_eq_append_iff.1
    (List.take_append_drop start (cursors.filterMap Cursor.kept?)).symm
  obtain ⟨fronts, hf⟩ := exists_ask front
  obtain ⟨backs, hb⟩ := exists_ask back
  rw [hfront] at hf
  rw [hback] at hb
  rcases Branch.askFrom_cases start ((front ++ back).filterMap Cursor.kept?) with
    ⟨item, hi, hask⟩ | ⟨hnone, beat, hask, hbeat, -⟩
  · -- the branches in front are not asked
    rw [hask]
    rw [hi] at hb
    refine ⟨front.map ([], ·) ++ backs, List.rel_append (forall₂_passed front) hb.goes, ?_, ?_,
      fun hn => by simp [Branch.itemsOf, Beat.item?] at hn⟩
    · rw [List.map_append, List.filterMap_append, map_snd_passed, hb.kept, hfront]
    · rw [List.map_append]
      exact hb.interleaved.nils_append (by simp [Answer.given])
  · rw [hask, hbeat]
    rw [hnone] at hb
    refine ⟨fronts ++ backs, List.rel_append hf.goes hb.goes, ?_, ?_, fun hn => ?_⟩
    · rw [List.map_append, List.filterMap_append, hf.kept, hb.kept]
    · rw [List.map_append]
      exact hf.interleaved.append_nils hb.interleaved.eq_nil
    · exact List.forall_mem_append.2 ⟨hf.resting hn, hb.resting rfl⟩

end Outcomes

end HomeHub
