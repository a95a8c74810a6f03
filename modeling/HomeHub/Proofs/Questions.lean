import HomeHub.Proofs.ClosingRuns

/-!
# Questions

A stream that is asked one question after the other answers each with an item, or that there is none
for now, or that there will be none any more. A poll asks until it is told that there is no item, or has
as many as it wants.
-/

namespace HomeHub

namespace Answer

def isEnded : Answer → Bool
  | .ended => true
  | _ => false

theorem isEnded_iff {answer : Answer} : answer.isEnded = true ↔ answer = .ended := by
  cases answer <;> simp [isEnded]

theorem any_isEnded {answers : List Answer} : answers.any isEnded = true ↔ .ended ∈ answers := by
  simp [isEnded_iff]

def given (answers : List Answer) : List Item := answers.flatMap items

theorem given_append (first second : List Answer) : given (first ++ second) = given first ++ given second :=
  List.flatMap_append

theorem mem_given {answers : List Answer} {found : Item} :
    found ∈ given answers ↔ .item found ∈ answers := by
  rw [given, List.mem_flatMap]
  constructor
  · rintro ⟨answer, hm, h⟩
    cases answer with
    | item other => exact List.mem_singleton.1 h ▸ hm
    | _ => cases h
  · exact fun hm => ⟨_, hm, List.mem_singleton_self _⟩

end Answer

def Beat.answer : Beat → Answer
  | .item found => .item found
  | .pause => .waiting

-- ---------------------------------------------------------------------------
-- Runs that are asked
-- ---------------------------------------------------------------------------

namespace Branch

variable {σ : Type}

/-- The answer to the next question. A run without further steps has told all it has for now. -/
def reply (branch : Branch σ) : Answer :=
  match branch.run.steps with
  | (beat, _) :: _ => beat.answer
  | [] => if branch.run.ended then .ended else .waiting

def next (branch : Branch σ) : Branch σ :=
  match branch.run.steps with
  | (_, state) :: steps => ⟨state, { branch.run with steps := steps }⟩
  | [] => { branch with state := branch.run.rest }

def behind (branch : Branch σ) : Nat → Branch σ
  | 0 => branch
  | count + 1 => (branch.behind count).next

def replies (branch : Branch σ) : Nat → List Answer
  | 0 => []
  | count + 1 => branch.replies count ++ [(branch.behind count).reply]

theorem behind_succ (branch : Branch σ) (count : Nat) :
    branch.behind (count + 1) = branch.next.behind count := by
  induction count with
  | zero => rfl
  | succ count ih => rw [behind, ih, behind]

theorem replies_succ (branch : Branch σ) (count : Nat) :
    branch.replies (count + 1) = branch.reply :: branch.next.replies count := by
  induction count with
  | zero => rfl
  | succ count ih => rw [replies, ih, replies, behind_succ, List.cons_append]

/-- A run without steps goes on with one answer. -/
theorem replies_nil (start rest : σ) (ended : Bool) (count : Nat) :
    Branch.replies ⟨start, ⟨[], rest, ended⟩⟩ count =
      List.replicate count (if ended then .ended else .waiting) := by
  induction count generalizing start with
  | zero => rfl
  | succ count ih =>
    rw [replies_succ, List.replicate_succ]
    exact congrArg _ (ih rest)

theorem behind_nil (start rest : σ) (ended : Bool) (count : Nat) :
    Branch.behind ⟨start, ⟨[], rest, ended⟩⟩ (count + 1) = ⟨rest, ⟨[], rest, ended⟩⟩ := by
  induction count with
  | zero => rfl
  | succ count ih =>
    rw [behind, ih]
    rfl

end Branch

-- ---------------------------------------------------------------------------
-- Polls
-- ---------------------------------------------------------------------------

namespace Run

variable {σ : Type} {steps : List (Beat × σ)} {rest : σ} {ended : Bool}

theorem exists_replies_take (limit : Option Nat) (start : σ) (run : Run σ) :
    ∃ count status, run.take limit start = (Answer.given (Branch.replies ⟨start, run⟩ count), status,
        (Branch.behind ⟨start, run⟩ count).state) ∧
      (status = .waiting → (Branch.replies ⟨start, run⟩ count).getLast? = some .waiting) ∧
      (status = .ended → (Branch.replies ⟨start, run⟩ count).getLast? = some .ended) := by
  obtain ⟨steps, rest, ended⟩ := run
  unfold take
  dsimp only
  induction steps generalizing limit start with
  | nil =>
    by_cases hl : limit = some 0
    · exact ⟨0, .full, by rw [hl, takeSteps_zero]; rfl, by simp, by simp⟩
    · cases ended with
      | true => exact ⟨1, .ended, by rw [takeSteps_nil hl]; rfl, by simp, fun _ => rfl⟩
      | false => exact ⟨1, .waiting, by rw [takeSteps_nil hl]; rfl, fun _ => rfl, by simp⟩
  | cons step steps ih =>
    obtain ⟨beat, state⟩ := step
    by_cases hl : limit = some 0
    · exact ⟨0, .full, by rw [hl, takeSteps_zero]; rfl, by simp, by simp⟩
    cases beat with
    | pause => exact ⟨1, .waiting, by rw [takeSteps_pause hl]; rfl, fun _ => rfl, by simp⟩
    | item item =>
      obtain ⟨count, status, ht, hw, he⟩ := ih (limit.map (· - 1)) state
      have hreplies : Branch.replies ⟨start, ⟨(.item item, state) :: steps, rest, ended⟩⟩ (count + 1) =
          .item item :: Branch.replies ⟨state, ⟨steps, rest, ended⟩⟩ count := Branch.replies_succ _ _
      have hlast {answer : Answer}
          (h : (Branch.replies ⟨state, ⟨steps, rest, ended⟩⟩ count).getLast? = some answer) :
          (Branch.replies ⟨start, ⟨(.item item, state) :: steps, rest, ended⟩⟩ (count + 1)).getLast? =
            some answer := by
        rw [hreplies, List.getLast?_cons, h]
        rfl
      refine ⟨count + 1, status, ?_, fun h => hlast (hw h), fun h => hlast (he h)⟩
      rw [takeSteps_item hl, ht, hreplies, Branch.behind_succ]
      rfl

/-- The answers of a run without pauses are those of a poll for as many items. -/
theorem exists_take_eq_replies {run : Run σ} (h : ∀ step ∈ run.steps, ∃ item, step.1 = .item item)
    (start : σ) (count : Nat) :
    ∃ status, run.take (some count) start = (Answer.given (Branch.replies ⟨start, run⟩ count), status,
        (Branch.behind ⟨start, run⟩ count).state) ∧
      ((Branch.replies ⟨start, run⟩ count).getLast? = some .waiting → status = .waiting) ∧
      (.ended ∈ Branch.replies ⟨start, run⟩ count → status = .ended) := by
  obtain ⟨steps, rest, ended⟩ := run
  unfold take
  dsimp only at h ⊢
  induction steps generalizing count start with
  | nil =>
    rw [Branch.replies_nil]
    cases count with
    | zero => exact ⟨.full, rfl, by simp, by simp⟩
    | succ count =>
      rw [Branch.behind_nil, takeSteps_nil (by simp)]
      refine ⟨if ended then .ended else .waiting, ?_, ?_⟩ <;>
        cases ended <;> simp [Answer.given, Answer.items, List.getLast?_replicate]
  | cons step steps ih =>
    obtain ⟨beat, state⟩ := step
    obtain ⟨⟨item, rfl⟩, hrest⟩ := List.forall_mem_cons.1 h
    cases count with
    | zero => exact ⟨.full, rfl, by simp [Branch.replies], by simp [Branch.replies]⟩
    | succ count =>
      obtain ⟨status, ht, hw, he⟩ := ih state count hrest
      have hreplies : Branch.replies ⟨start, ⟨(.item item, state) :: steps, rest, ended⟩⟩ (count + 1) =
          .item item :: Branch.replies ⟨state, ⟨steps, rest, ended⟩⟩ count := Branch.replies_succ _ _
      refine ⟨status, ?_, fun h => hw ?_, fun h => he ?_⟩
      · have htake : takeSteps ended rest (some (count + 1)) start ((.item item, state) :: steps) =
            (item :: (takeSteps ended rest (some count) state steps).1,
              (takeSteps ended rest (some count) state steps).2) := takeSteps_item (by simp) ..
        rw [htake, ht, hreplies, Branch.behind_succ]
        rfl
      · rw [hreplies, List.getLast?_cons] at h
        cases hlast : (Branch.replies ⟨state, ⟨steps, rest, ended⟩⟩ count).getLast? with
        | none => simp [hlast] at h
        | some answer => simpa [hlast] using h
      · rw [hreplies] at h
        simpa using h

end Run

-- ---------------------------------------------------------------------------
-- Streams that are asked
-- ---------------------------------------------------------------------------

namespace Stream

def inside (instant : Instant) (stream : Stream) : Branch Stream := ⟨stream, stream.run instant⟩

/-- The stream behind questions. In each of some instants it is asked so many of them in a row. -/
def behind : Stream → List (Instant × Nat) → Stream
  | stream, [] => stream
  | stream, (instant, count) :: questions => ((stream.inside instant).behind count).state.behind questions

def answers : Stream → List (Instant × Nat) → List (List Answer)
  | _, [] => []
  | stream, (instant, count) :: questions =>
    (stream.inside instant).replies count :: ((stream.inside instant).behind count).state.answers questions

theorem behind_concat (stream : Stream) (questions : List (Instant × Nat)) (instant : Instant)
    (count : Nat) : stream.behind (questions ++ [(instant, count)]) =
      (((stream.behind questions).inside instant).behind count).state := by
  induction questions generalizing stream with
  | nil => rfl
  | cons question rest ih => exact ih _

theorem answers_concat (stream : Stream) (questions : List (Instant × Nat)) (instant : Instant)
    (count : Nat) : stream.answers (questions ++ [(instant, count)]) =
      stream.answers questions ++ [((stream.behind questions).inside instant).replies count] := by
  induction questions generalizing stream with
  | nil => rfl
  | cons question rest ih => exact congrArg (_ :: ·) (ih _)

end Stream

end HomeHub
