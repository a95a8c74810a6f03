import HomeHub.Proofs.FinalErrors
import HomeHub.Proofs.SteadyRuns
import Mathlib.Algebra.Order.BigOperators.Group.List
import Mathlib.Algebra.Order.Group.Nat

/-!
# Ownership of buses

A stream keeps the feeds it was opened with, whatever is asked of it: a merge leaves out only branches
that have ended, and a feed whose bus still has an owner does not end. So a stream that was opened for
handles owns their buses for as long as it is there.
-/

namespace HomeHub

namespace Stream

-- ---------------------------------------------------------------------------
-- Feeds
-- ---------------------------------------------------------------------------

mutual
/-- How many feeds of some kind a stream holds. The kind is told by the bus and by ownership. -/
def feeds (watched : Nat → Bool → Bool) : Stream → Nat
  | .feed slot owning _ => if watched slot owning then 1 else 0
  | .ready _ _ => 0
  | .over => 0
  | .filter _ source => source.feeds watched
  | .untilError _ source => source.feeds watched
  | .merge _ branches => feedsOfAll watched branches
  | .hold _ source => source.feeds watched
termination_by structural s => s
def feedsOfAll (watched : Nat → Bool → Bool) : List Stream → Nat
  | [] => 0
  | branch :: rest => branch.feeds watched + feedsOfAll watched rest
termination_by structural branches => branches
end

theorem feedsOfAll_eq (watched : Nat → Bool → Bool) (branches : List Stream) :
    feedsOfAll watched branches = (branches.map (feeds watched)).sum := by
  induction branches with
  | nil => rfl
  | cons branch rest ih => rw [feedsOfAll, ih, List.map_cons, List.sum_cons]

theorem feeds_le_feedsOfAll (watched : Nat → Bool → Bool) {branch : Stream} {branches : List Stream}
    (h : branch ∈ branches) : branch.feeds watched ≤ feedsOfAll watched branches := by
  rw [feedsOfAll_eq]
  exact List.le_sum_of_mem (List.mem_map_of_mem h)

def keeping (slot : Nat) : Nat → Bool → Bool := fun other owning => owning && other == slot

mutual
theorem owns_eq_true (slot : Nat) :
    ∀ stream : Stream, stream.owns slot = true ↔ 0 < stream.feeds (keeping slot)
  | .feed other owning _ => by
    cases h : (owning && other == slot) <;> simp [owns, feeds, keeping, h]
  | .ready _ _ => by simp [owns, feeds]
  | .over => by simp [owns, feeds]
  | .filter _ source => source.owns_eq_true slot
  | .untilError _ source => source.owns_eq_true slot
  | .merge _ branches => anyOwns_eq_true slot branches
  | .hold _ source => source.owns_eq_true slot
theorem anyOwns_eq_true (slot : Nat) :
    ∀ branches : List Stream, anyOwns slot branches = true ↔ 0 < feedsOfAll (keeping slot) branches
  | [] => by simp [anyOwns, feedsOfAll]
  | branch :: rest => by
    have hfirst := branch.owns_eq_true slot
    have hrest := anyOwns_eq_true slot rest
    rw [anyOwns, feedsOfAll, Bool.or_eq_true, hfirst, hrest]
    omega
end

-- ---------------------------------------------------------------------------
-- Streams that go on
-- ---------------------------------------------------------------------------

/-- Streams that have told no error and no end. What they are made from is of some kind. A source that
has ended had no feed that is watched. -/
inductive Live (leaf : Stream → Prop) (watched : Nat → Bool → Bool) : Stream → Prop where
  | leaf {stream : Stream} (h : leaf stream) : Live leaf watched stream
  | filter {source : Stream} (keep : StateChange → Bool) (h : Live leaf watched source) :
      Live leaf watched (.filter keep source)
  | untilError {source : Stream} (h : Live leaf watched source) :
      Live leaf watched (.untilError false source)
  | merge {branches : List Stream} (h : ∀ branch ∈ branches, Live leaf watched branch) :
      Live leaf watched (.merge false branches)
  | hold {state : Hold} {source : Stream} (ho : state.IsOpen) (h : Live leaf watched source) :
      Live leaf watched (.hold state source)
  | drained {state : Hold} {source : Stream} (he : state.sourceEnded = true)
      (hb : source.feeds watched = 0) : Live leaf watched (.hold state source)

def Kept (leaf : Stream → Prop) (watched : Nat → Bool → Bool) (stream : Stream) : Prop :=
  stream.Live leaf watched ∨ stream.IsOver

def Spares (watched : Nat → Bool → Bool) (closed : Nat → Bool) : Prop :=
  ∀ slot owning, watched slot owning = true → closed slot = false

/-- Streams of some kind stay of that kind, keep their feeds and end only without feeds. -/
def RunSteadily (leaf : Stream → Prop) (watched : Nat → Bool → Bool) (closed : Nat → Bool)
    (expected : HubError → Prop) : Prop :=
  ∀ instant : Instant, instant.closed = closed → ∀ stream : Stream, leaf stream →
    (0 < stream.feeds watched → Spares watched closed) →
    (stream.run instant).Steady
      (fun next => leaf next ∧ next.feeds watched = stream.feeds watched)
      (fun next => leaf next ∧ next.feeds watched = stream.feeds watched) expected
      (stream.feeds watched = 0)

section
variable {leaf : Stream → Prop} {watched : Nat → Bool → Bool} {closed : Nat → Bool}
  {expected : HubError → Prop} {stream : Stream}

theorem live_of_hold {amount : Nat} {state : Hold × Stream}
    (h : Hold.IsLive (fun next => next.Live leaf watched ∧ next.feeds watched = amount)
      (fun next => next.feeds watched = amount) (amount = 0) state) :
    (Stream.hold state.1 state.2).Live leaf watched ∧ state.2.feeds watched = amount := by
  cases h with
  | going ho hs => exact ⟨.hold ho hs.1, hs.2⟩
  | drained he hs hb => exact ⟨.drained he (hs.trans hb), hs⟩

theorem kept_of_hold {amount : Nat} {state : Hold × Stream}
    (h : Hold.IsKept (fun next => next.Live leaf watched ∧ next.feeds watched = amount)
      (fun next => next.feeds watched = amount) (amount = 0) state) :
    (Stream.hold state.1 state.2).Kept leaf watched ∧ state.2.feeds watched = amount := by
  cases h with
  | live h => exact (live_of_hold h).imp_left .inl
  | finished hf hs => exact ⟨.inr (.hold hf _), hs⟩

theorem forall₂_runBranches {R : Stream → Run Stream → Prop} {instant : Instant} {branches : List Stream}
    (h : ∀ branch ∈ branches, ∀ index, R branch (branch.run (instant.inside index))) (start : Nat) :
    List.Forall₂ R branches (runBranches instant start branches) := by
  induction branches generalizing start with
  | nil => exact .nil
  | cons branch rest ih =>
    obtain ⟨hbranch, hrest⟩ := List.forall_mem_cons.1 h
    exact .cons (hbranch start) (ih hrest (start + 1))

theorem Live.run (h : stream.Live leaf watched) (law : RunSteadily leaf watched closed expected)
    (hs : 0 < stream.feeds watched → Spares watched closed) {instant : Instant}
    (hc : instant.closed = closed) :
    (stream.run instant).Steady
      (fun next => next.Live leaf watched ∧ next.feeds watched = stream.feeds watched)
      (fun next => next.Kept leaf watched ∧ next.feeds watched = stream.feeds watched) expected
      (stream.feeds watched = 0) := by
  induction h generalizing instant with
  | leaf h =>
    exact (law instant hc _ h hs).mono (fun _ => .imp_left .leaf) fun _ => .imp_left (.inl <| .leaf ·)
  | filter keep _ ih =>
    refine ((ih hs hc).filter keep).map (fun _ => .imp_left (.filter keep)) fun _ => .imp_left ?_
    exact Or.imp (.filter keep) (.filter keep)
  | untilError _ ih =>
    rw [Stream.run, if_neg Bool.false_ne_true]
    refine (ih hs hc).untilError.map ?_ ?_
    · rintro ⟨done, next⟩ ⟨rfl, hnext⟩
      exact hnext.imp_left .untilError
    · rintro ⟨done, next⟩ ⟨rfl, hnext⟩
      exact ⟨.inr (.untilError next), hnext.2⟩
  | @merge branches hlive ih =>
    -- what a branch has of watched feeds is part of what the merge has
    have hsteady : ∀ branch ∈ branches, ∀ index,
        Branch.IsSteady (Live leaf watched) (Kept leaf watched) (feeds watched) expected
          ⟨branch, branch.run (instant.inside index)⟩ := fun branch hm index =>
      ⟨hlive branch hm, ih branch hm (fun hpos => hs (Nat.lt_of_lt_of_le hpos
        (feeds_le_feedsOfAll watched hm))) hc⟩
    rw [Stream.run, if_neg Bool.false_ne_true]
    refine (Branch.steady_weave _ (feedsOfAll_eq watched branches).symm
      (forall₂_runBranches hsteady 0)).map ?_ ?_
    · rintro ⟨done, next⟩ ⟨rfl, hnext⟩
      exact ⟨.merge hnext.live, (feedsOfAll_eq watched next).trans hnext.amount⟩
    · rintro ⟨done, next⟩ ⟨rfl, hnext⟩
      exact ⟨.inr (.merge next), (feedsOfAll_eq watched next).trans hnext⟩
  | hold ho _ ih =>
    have hsource := (ih hs hc).mono (fun _ => id) fun _ hnext => hnext.2
    exact (hsource.held ho instant.now _).map (fun _ => live_of_hold) fun _ => kept_of_hold
  | drained he hb =>
    -- the source is not asked again, and had nothing that is watched
    refine Run.Steady.map ?_ (fun _ => live_of_hold) fun _ => kept_of_hold
    refine Run.steady_hold_drained he ?_ hb instant.now _
    rfl

theorem Kept.poll (h : stream.Kept leaf watched) {instant : Instant}
    (law : RunSteadily leaf watched instant.closed expected)
    (hs : 0 < stream.feeds watched → Spares watched instant.closed) (limit : Option Nat) :
    ((stream.poll instant limit).2.2.Kept leaf watched ∧
      (stream.poll instant limit).2.2.feeds watched = stream.feeds watched) ∧
      ∀ error, .error error ∈ (stream.poll instant limit).1 → expected error := by
  rcases h with hlive | hover
  · exact (hlive.run law hs rfl).take (fun _ => .imp_left .inl) ⟨.inl hlive, rfl⟩ limit
  · rcases eq_or_ne limit (some 0) with rfl | hlimit
    · rw [poll_zero]
      exact ⟨⟨.inr hover, rfl⟩, by simp⟩
    · rw [hover.poll instant hlimit]
      exact ⟨⟨.inr hover, rfl⟩, by simp⟩

end

-- ---------------------------------------------------------------------------
-- Feeds and ready items
-- ---------------------------------------------------------------------------

inductive IsLeaf : Stream → Prop where
  | feed (slot : Nat) (owning : Bool) (cursor : Nat) : IsLeaf (.feed slot owning cursor)
  | ready (turns : Nat) (items : List Item) : IsLeaf (.ready turns items)
  | over : IsLeaf .over

inductive IsHandle (slots : List Nat) : Stream → Prop where
  | feed {slot : Nat} (h : slot ∈ slots) (cursor : Nat) : IsHandle slots (.feed slot true cursor)

section
variable {instant : Instant} {slot : Nat} {owning : Bool} {cursor : Nat}

theorem ne_closed_of_mem_read {bus : Bus} {error : BusError} {behind : Nat}
    (h : (.error error, behind) ∈ bus.read cursor) : error ≠ .closed := by
  dsimp only [Bus.read] at h
  split at h
  · simp at h
  · rcases List.mem_cons.1 h with heq | hm
    · cases heq
      exact BusError.noConfusion
    · simp at hm

theorem steady_feedRun {kind : Stream → Prop} {expected : HubError → Prop} {bare : Prop}
    (hfeed : ∀ behind, kind (.feed slot owning behind))
    (he : ∀ error, error ≠ .bus .closed → expected error)
    (hclosed : instant.closed slot = true → kind .over ∧ expected (.bus .closed) ∧ bare) :
    (feedRun instant slot owning cursor).Steady kind kind expected bare := by
  have hread : ∀ entry ∈ ((instant.buses[slot]?).map (·.read cursor)).getD [],
      kind (.feed slot owning entry.2) ∧
        ∀ error, Beat.item (entry.1.mapError HubError.bus) = .item (.error error) → expected error := by
    rintro ⟨item, behind⟩ hentry
    refine ⟨hfeed behind, fun error heq => he error ?_⟩
    cases hb : instant.buses[slot]? with
    | none => simp [hb] at hentry
    | some bus =>
      rw [hb] at hentry
      cases item with
      | ok change => simp [Except.mapError] at heq
      | error found =>
        obtain rfl : .bus found = error := by simpa [Except.mapError] using heq
        simpa using ne_closed_of_mem_read hentry
  unfold feedRun
  split
  · rename_i hc
    obtain ⟨hover, hexpected, hbare⟩ := hclosed hc
    refine Run.steady_of_live (fun _ => id)
      (List.forall_mem_append.2 ⟨List.forall_mem_map.2 hread, ?_⟩) hover fun _ => hbare
    simpa [Run.after] using ⟨hover, hexpected⟩
  · exact Run.steady_of_live (fun _ => id) (List.forall_mem_map.2 hread) (hfeed _) (by simp)

end

/-- A feed whose bus is closed is none that is watched, so it may end. -/
theorem runSteadily_isLeaf (watched : Nat → Bool → Bool) (closed : Nat → Bool) :
    RunSteadily IsLeaf watched closed fun _ => True := by
  rintro instant rfl stream (⟨slot, owning, cursor⟩ | ⟨turns, items⟩ | _) hspares
  · refine steady_feedRun (fun _ => ⟨.feed .., rfl⟩) (fun _ _ => trivial) fun hclosed => ?_
    have hbare : (Stream.feed slot owning cursor).feeds watched = 0 := by
      by_contra hne
      have hwatched : watched slot owning = true := by simpa [feeds] using hne
      rw [hspares (Nat.pos_of_ne_zero hne) slot owning hwatched] at hclosed
      exact Bool.false_ne_true hclosed
    exact ⟨⟨.over, hbare.symm⟩, trivial, hbare⟩
  · refine Run.steady_of_live (fun _ => id) (fun step hm => ?_) ⟨.ready .., rfl⟩ fun _ => rfl
    obtain ⟨⟨beat, state⟩, -, rfl⟩ := List.mem_map.1 hm
    exact ⟨⟨.ready .., rfl⟩, fun _ _ => trivial⟩
  · exact .ended ⟨.over, rfl⟩ rfl

theorem runSteadily_isHandle {slots : List Nat} {closed : Nat → Bool}
    (h : ∀ slot ∈ slots, closed slot = false) (watched : Nat → Bool → Bool) :
    RunSteadily (IsHandle slots) watched closed (· ≠ .bus .closed) := by
  rintro instant rfl stream ⟨hslot, cursor⟩ -
  refine steady_feedRun (fun behind => ⟨.feed hslot behind, rfl⟩) (fun _ => id) fun hclosed => ?_
  rw [h _ hslot] at hclosed
  exact absurd hclosed Bool.false_ne_true

end Stream

-- ---------------------------------------------------------------------------
-- Plans
-- ---------------------------------------------------------------------------

namespace Plan

mutual
def handles : Plan → List Nat
  | .bus _ => []
  | .entity slot _ => [slot]
  | .items _ => []
  | .transitions plan => plan.handles
  | .untilError plan => plan.handles
  | .merged plans => handlesOfAll plans
  | .held _ _ plan => plan.handles
termination_by structural plan => plan
def handlesOfAll : List Plan → List Nat
  | [] => []
  | plan :: rest => plan.handles ++ handlesOfAll rest
termination_by structural plans => plans
end

mutual
theorem feeds_start (lengths : Nat → Nat) (slot : Nat) :
    ∀ plan : Plan, (plan.start lengths).feeds (Stream.keeping slot) = plan.handles.count slot
  | .bus _ => rfl
  | .entity other entityId => by
    simp [start, Stream.ofEntity, Stream.upToError, Stream.feeds, Stream.keeping, handles,
      List.count_singleton]
  | .items _ => rfl
  | .transitions plan => plan.feeds_start lengths slot
  | .untilError plan => plan.feeds_start lengths slot
  | .merged plans => feedsOfAll_startAll lengths slot plans
  | .held _ _ plan => plan.feeds_start lengths slot
theorem feedsOfAll_startAll (lengths : Nat → Nat) (slot : Nat) :
    ∀ plans : List Plan,
      Stream.feedsOfAll (Stream.keeping slot) (startAll lengths plans) = (handlesOfAll plans).count slot
  | [] => rfl
  | plan :: rest => by
    rw [startAll, Stream.feedsOfAll, handlesOfAll, List.count_append, plan.feeds_start lengths slot,
      feedsOfAll_startAll lengths slot rest]
end

theorem owns_start (lengths : Nat → Nat) (slot : Nat) (plan : Plan) :
    (plan.start lengths).owns slot = true ↔ slot ∈ plan.handles := by
  rw [Stream.owns_eq_true, plan.feeds_start, List.count_pos_iff]

theorem startAll_eq (lengths : Nat → Nat) (plans : List Plan) :
    startAll lengths plans = plans.map (start lengths) := by
  induction plans with
  | nil => rfl
  | cons plan rest ih => rw [startAll, ih, List.map_cons]

theorem handlesOfAll_eq (plans : List Plan) : handlesOfAll plans = plans.flatMap handles := by
  induction plans with
  | nil => rfl
  | cons plan rest ih => rw [handlesOfAll, ih, List.flatMap_cons]

theorem busesOfAll_eq (plans : List Plan) : busesOfAll plans = plans.flatMap buses := by
  induction plans with
  | nil => rfl
  | cons plan rest ih => rw [busesOfAll, ih, List.flatMap_cons]

section
variable {plan : Plan} {lengths : Nat → Nat} {watched : Nat → Bool → Bool}

theorem OfHandles.handles_eq (h : plan.OfHandles) : plan.handles = plan.buses := by
  induction h with
  | entity => rfl
  | transitions _ ih => exact ih
  | untilError _ ih => exact ih
  | merged _ ih =>
    rw [handles, buses, handlesOfAll_eq, busesOfAll_eq]
    exact List.flatMap_congr ih
  | held _ _ _ ih => exact ih

theorem OfHandles.live_start (h : plan.OfHandles) {slots : List Nat} (hs : plan.buses ⊆ slots) :
    (plan.start lengths).Live (Stream.IsHandle slots) watched := by
  induction h with
  | entity slot entityId =>
    exact .untilError (.filter _ (.leaf (.feed (hs (List.mem_singleton_self slot)) _)))
  | transitions _ ih => exact .filter _ (ih hs)
  | untilError _ ih => exact .untilError (ih hs)
  | @merged plans _ ih =>
    refine .merge fun branch hm => ?_
    rw [startAll_eq] at hm
    obtain ⟨plan, hplan, rfl⟩ := List.mem_map.1 hm
    refine ih plan hplan fun slot hslot => hs ?_
    rw [buses, busesOfAll_eq]
    exact List.mem_flatMap_of_mem hplan hslot
  | held _ _ _ ih => exact .hold ⟨rfl, rfl⟩ (ih hs)

end

mutual
theorem live_start (lengths : Nat → Nat) (watched : Nat → Bool → Bool) :
    ∀ plan : Plan, (plan.start lengths).Live Stream.IsLeaf watched
  | .bus _ => .leaf (.feed ..)
  | .entity _ _ => .untilError (.filter _ (.leaf (.feed ..)))
  | .items _ => .leaf (.ready ..)
  | .transitions plan => .filter _ (plan.live_start lengths watched)
  | .untilError plan => .untilError (plan.live_start lengths watched)
  | .merged plans => .merge (live_startAll lengths watched plans)
  | .held _ _ plan => .hold ⟨rfl, rfl⟩ (plan.live_start lengths watched)
theorem live_startAll (lengths : Nat → Nat) (watched : Nat → Bool → Bool) :
    ∀ plans : List Plan, ∀ branch ∈ startAll lengths plans, branch.Live Stream.IsLeaf watched
  | [] => by simp [startAll]
  | plan :: rest =>
    List.forall_mem_cons.2 ⟨plan.live_start lengths watched, live_startAll lengths watched rest⟩
end

end Plan

end HomeHub
