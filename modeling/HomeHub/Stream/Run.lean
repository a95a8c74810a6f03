import HomeHub.Error
import HomeHub.State

/-!
# Runs

What a stream answers when it is asked again and again without anything else happening: its items
and pauses, each with the state of the stream behind it, and the state in which it has no more for
now. A stream that pauses has not looked whether there is more; it goes on when it is asked anew.
Streams are put together by putting their runs together.
-/

namespace HomeHub

abbrev Item := Except HubError StateChange

/-- An answer that a run goes on behind. -/
inductive Beat where
  | item (item : Item)
  | pause

namespace Beat

def item? : Beat → Option Item
  | .item found => some found
  | .pause => none

def passes (keep : StateChange → Bool) : Beat → Bool
  | .item (.ok change) => keep change
  | .item (.error _) => true
  | .pause => true

end Beat

structure Run (σ : Type) where
  steps : List (Beat × σ)
  rest : σ
  /-- There will be no more items at all. -/
  ended : Bool

inductive PollStatus where
  | waiting
  | ended
  /-- As many items as were asked for. -/
  | full
  deriving DecidableEq

namespace Run

variable {σ τ : Type}

def cons (beat : Beat) (state : σ) (run : Run σ) : Run σ :=
  { run with steps := (beat, state) :: run.steps }

def map (f : σ → τ) (run : Run σ) : Run τ :=
  ⟨run.steps.map fun (beat, state) => (beat, f state), f run.rest, run.ended⟩

def filter (keep : StateChange → Bool) (run : Run σ) : Run σ :=
  { run with steps := run.steps.filter fun (beat, _) => beat.passes keep }

def after (steps : List (Beat × σ)) (run : Run σ) : Run σ :=
  { run with steps := steps ++ run.steps }

-- ---------------------------------------------------------------------------
-- Ready items
-- ---------------------------------------------------------------------------

/-- How many questions in a row a list of ready items answers before it pauses. -/
def maximalTurns : Nat := 32

/-- A list of ready items that pauses after `turns` more answers. The answer that there are no
items is one of them. -/
def ready : Nat → List Item → Run (Nat × List Item)
  | 0, [] => cons .pause (maximalTurns, []) ⟨[], (maximalTurns - 1, []), true⟩
  | turns + 1, [] => ⟨[], (turns, []), true⟩
  | 0, item :: rest =>
    cons .pause (maximalTurns, item :: rest) <|
      cons (.item item) (maximalTurns - 1, rest) (ready (maximalTurns - 1) rest)
  | turns + 1, item :: rest => cons (.item item) (turns, rest) (ready turns rest)

-- ---------------------------------------------------------------------------
-- Errors
-- ---------------------------------------------------------------------------

/-- Steps up to the first error, and the state behind that error, if there is one. -/
def cutSteps : List (Beat × σ) → List (Beat × Bool × σ) × Option σ
  | [] => ([], none)
  | (.item (.error error), state) :: _ => ([(.item (.error error), true, state)], some state)
  | (beat, state) :: rest =>
    let (steps, last) := cutSteps rest
    ((beat, false, state) :: steps, last)

/-- Nothing follows the first error. The states of the result say whether the run is over. -/
def untilError (run : Run σ) : Run (Bool × σ) :=
  match cutSteps run.steps with
  | (steps, some last) => ⟨steps, (true, last), true⟩
  | (steps, none) => ⟨steps, (run.ended, run.rest), run.ended⟩

-- ---------------------------------------------------------------------------
-- Asking
-- ---------------------------------------------------------------------------

def takeSteps (ended : Bool) (rest : σ) : Option Nat → σ → List (Beat × σ) → List Item × PollStatus × σ
  | some 0, state, _ => ([], .full, state)
  | _, _, [] => ([], if ended then .ended else .waiting, rest)
  | _, _, (.pause, state) :: _ => ([], .waiting, state)
  | limit, _, (.item item, state) :: steps =>
    let (items, status, last) := takeSteps ended rest (limit.map (· - 1)) state steps
    (item :: items, status, last)

/-- The items up to the first pause, or as many as `limit` allows, of a run from `start` on. -/
def take (limit : Option Nat) (start : σ) (run : Run σ) : List Item × PollStatus × σ :=
  takeSteps run.ended run.rest limit start run.steps

end Run

end HomeHub
