import HomeHub.Stream.Run

/-!
# Holding a change

Lets a change through only once what it brought about has lasted for a while. A change at which
the predicate has different answers for the two sides is an edge; the last edge waits for its
deadline, every further edge takes its place, and when the time has come it is delivered if the
predicate holds of its new side. Changes that are no edges have no influence.
-/

namespace HomeHub

/-- How a batch of changes ends. -/
inductive Ending where
  /-- There may be more later. -/
  | waiting
  | ended
  | failed (error : HubError)
  deriving DecidableEq

inductive Answer where
  | item (item : Item)
  | waiting
  | ended

structure Hold where
  /-- The first argument counts the questions asked before. -/
  predicate : Nat → Option EntityState → Bool
  duration : Nat
  asked : Nat
  /-- The last edge and when it is due. -/
  pending : Option (StateChange × Nat)
  sourceEnded : Bool
  finished : Bool

namespace Hold

def start (predicate : Nat → Option EntityState → Bool) (duration : Nat) : Hold :=
  ⟨predicate, duration, 0, none, false, false⟩

def see (now : Nat) (hold : Hold) (change : StateChange) : Hold :=
  let before := hold.predicate hold.asked change.old
  let after := hold.predicate (hold.asked + 1) change.new
  { hold with
    asked := hold.asked + 2
    pending := if before != after then some (change, now + hold.duration) else hold.pending }

/-- Takes in a batch, unless the source has ended before. -/
def drain (now : Nat) (hold : Hold) (batch : List StateChange) (ending : Ending) : Hold :=
  if hold.sourceEnded then hold
  else { batch.foldl (see now) hold with sourceEnded := ending == .ended }

/-- With nothing left to wait for, the end. -/
def settle (hold : Hold) : Answer × Hold :=
  if hold.sourceEnded && hold.pending.isNone then (.ended, { hold with finished := true })
  else (.waiting, hold)

/-- Decides on the edge that is due. -/
def expire (now : Nat) (hold : Hold) : Answer × Hold :=
  match hold.pending with
  | none => hold.settle
  | some (change, due) =>
    if due ≤ now then
      let decided := { hold with asked := hold.asked + 1, pending := none }
      if hold.predicate hold.asked change.new then (.item (.ok change), decided)
      else decided.settle
    else hold.settle

def poll (now : Nat) (hold : Hold) (batch : List StateChange) (ending : Ending) : Answer × Hold :=
  if hold.finished then (.ended, hold)
  else
    let drained := hold.drain now batch ending
    match hold.sourceEnded, ending with
    | false, .failed error => (.item (.error error), { drained with pending := none, finished := true })
    | _, _ => drained.expire now

end Hold

namespace Run

variable {σ : Type}

/-- Steps of a held stream along those of its source, of which `batch` has been taken in since the
last answer. A pause ends a batch, and so does the end of the steps, of which `ending` says what
comes after them. -/
def holdSteps (now : Nat) (ending : Ending) (rest : σ) (hold : Hold) (batch : List StateChange) :
    List (Beat × σ) → Run (Hold × σ)
  | [] =>
    match hold.poll now batch ending with
    | (.item item, first) =>
      match first.poll now [] .waiting with
      | (.ended, second) => cons (.item item) (first, rest) ⟨[], (second, rest), true⟩
      | (_, second) => cons (.item item) (first, rest) ⟨[], (second, rest), false⟩
    | (.waiting, first) => ⟨[], (first, rest), false⟩
    | (.ended, first) => ⟨[], (first, rest), true⟩
  | (.item (.ok change), _) :: steps => holdSteps now ending rest hold (batch ++ [change]) steps
  | (.item (.error error), state) :: _ =>
    let (_, first) := hold.poll now batch (.failed error)
    cons (.item (.error error)) (first, state) ⟨[], (first, state), true⟩
  | (.pause, state) :: steps =>
    match hold.poll now batch .waiting with
    | (.item item, first) =>
      cons (.item item) (first, state) (holdSteps now ending rest first [] steps)
    | (_, first) => cons .pause (first, state) (holdSteps now ending rest first [] steps)

/-- The run of a held stream whose source has the given run from `source` on. All the source has,
up to a pause, is taken in before an answer. A source that has ended is not asked again. -/
def hold (now : Nat) (hold : Hold) (source : σ) (run : Run σ) : Run (Hold × σ) :=
  if hold.finished then ⟨[], (hold, source), true⟩
  else if hold.sourceEnded then holdSteps now .waiting source hold [] []
  else holdSteps now (if run.ended then .ended else .waiting) run.rest hold [] run.steps

end Run

end HomeHub
