import HomeHub.Stream.Run

/-!
# Merging

Several branches as one stream. Each time the merged stream is asked, it asks its branches in turn,
from any of them on, until one has an item. A branch that has ended is left out from then on. A
merged stream without an item pauses if one of its branches did, and ends without branches.
-/

namespace HomeHub

structure Branch (σ : Type) where
  state : σ
  run : Run σ

namespace Branch

variable {σ : Type}

/-- The answer of two groups of branches of which the second is asked where the first has no
item. -/
def answer : Option Beat → Option Beat → Option Beat
  | _, some (.item item) => some (.item item)
  | some first, _ => some first
  | none, second => second

def ask : List (Branch σ) → Option Beat × List (Branch σ)
  | [] => (none, [])
  | ⟨_, ⟨(.item item, state) :: steps, rest, ended⟩⟩ :: others =>
    (some (.item item), ⟨state, steps, rest, ended⟩ :: others)
  | ⟨_, ⟨(.pause, state) :: steps, rest, ended⟩⟩ :: others =>
    let (beat, others) := ask others
    (answer (some .pause) beat, ⟨state, steps, rest, ended⟩ :: others)
  | ⟨_, ⟨[], rest, ended⟩⟩ :: others =>
    let (beat, others) := ask others
    (beat, if ended then others else ⟨rest, [], rest, false⟩ :: others)

/-- Asks all branches from the one at `start` on, and goes on with the first. -/
def askFrom (start : Nat) (branches : List (Branch σ)) : Option Beat × List (Branch σ) :=
  match ask (branches.drop start) with
  | (some (.item item), back) => (some (.item item), branches.take start ++ back)
  | (first, back) =>
    let (second, front) := ask (branches.take start)
    (answer first second, front ++ back)

/-- The run of merged branches. The first argument of `pick` counts the questions; what it gives,
modulo the number of branches, is the branch that is asked first. The second argument bounds the
questions. -/
def runAll (pick : Nat → Nat) : Nat → Nat → List (Branch σ) → Run (List σ)
  | 0, _, branches => ⟨[], branches.map state, branches.isEmpty⟩
  | fuel + 1, count, branches =>
    match askFrom (pick count % branches.length) branches with
    | (some beat, branches) =>
      (runAll pick fuel (count + 1) branches).cons beat (branches.map state)
    | (none, branches) => ⟨[], branches.map state, branches.isEmpty⟩

end Branch

/-- The runs of several branches that start from `states` as one. Every question but the last takes
a step of some branch. -/
def Run.weave {σ : Type} (pick : Nat → Nat) (states : List σ) (runs : List (Run σ)) :
    Run (List σ) :=
  Branch.runAll pick ((runs.flatMap Run.steps).length + 1) 0 (states.zipWith Branch.mk runs)

end HomeHub
