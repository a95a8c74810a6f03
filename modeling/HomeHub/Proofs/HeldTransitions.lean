import HomeHub.Proofs.Debounce
import HomeHub.Proofs.FilteredRuns
import HomeHub.Proofs.Interchange

/-!
# Holding transitions only

A held stream takes no notice of changes that are no edges, so it makes no difference to it whether a
filter has left some of them out. For a predicate of the state text, changes that are no transitions
are of that kind.
-/

namespace HomeHub

-- ---------------------------------------------------------------------------
-- Sources that spare some changes
-- ---------------------------------------------------------------------------

namespace Run

variable {σ τ : Type}

section
variable {p : Option EntityState → Bool} {keep : StateChange → Bool} {first second : Hold}
  (hkeep : ∀ change, keep change = false → ¬ IsEdge p change)
include hkeep

theorem mirrors_holdSteps_nil (h : Hold.Alike p first second) (f : σ → τ) (now : Nat)
    (ending : Ending) (rest : σ) (batch : List StateChange) :
    Mirrors (fun state other => Hold.Alike p state.1 other.1 ∧ other.2 = f state.2)
      (holdSteps now ending rest first batch [])
      (holdSteps now ending (f rest) second (batch.filter keep) []) := by
  have hpoll := h.poll hkeep now batch ending
  simp only [holdSteps]
  generalize first.poll now batch ending = decided, second.poll now (batch.filter keep) ending =
    decided' at hpoll
  obtain ⟨answer, next⟩ := decided
  obtain ⟨answer', next'⟩ := decided'
  obtain ⟨rfl, hnext⟩ := hpoll
  cases answer' with
  | waiting => exact .rest false ⟨hnext, rfl⟩
  | ended => exact .rest true ⟨hnext, rfl⟩
  | item item =>
    have hlast := hnext.poll hkeep now [] .waiting
    simp only [List.filter_nil] at hlast
    dsimp only
    generalize next.poll now [] .waiting = last, next'.poll now [] .waiting = last' at hlast
    obtain ⟨answer, final⟩ := last
    obtain ⟨answer', final'⟩ := last'
    obtain ⟨rfl, hfinal⟩ := hlast
    cases answer' with
    | ended => exact .cons _ ⟨hnext, rfl⟩ (.rest true ⟨hfinal, rfl⟩)
    | _ => exact .cons _ ⟨hnext, rfl⟩ (.rest false ⟨hfinal, rfl⟩)

theorem mirrors_holdSteps (h : Hold.Alike p first second) (f : σ → τ) (now : Nat) (ending : Ending)
    (rest : σ) (batch : List StateChange) (steps : List (Beat × σ)) :
    Mirrors (fun state other => Hold.Alike p state.1 other.1 ∧ other.2 = f state.2)
      (holdSteps now ending rest first batch steps)
      (holdSteps now ending (f rest) second (batch.filter keep) (sparedSteps keep f steps)) := by
  induction steps generalizing first second batch with
  | nil => exact mirrors_holdSteps_nil hkeep h f now ending rest batch
  | cons step steps ih =>
    obtain ⟨beat, state⟩ := step
    cases beat with
    | pause =>
      have hpoll := h.poll hkeep now batch .waiting
      rw [sparedSteps_cons_pos rfl]
      simp only [holdSteps]
      generalize first.poll now batch .waiting = decided, second.poll now (batch.filter keep)
        .waiting = decided' at hpoll
      obtain ⟨answer, next⟩ := decided
      obtain ⟨answer', next'⟩ := decided'
      obtain ⟨rfl, hnext⟩ := hpoll
      cases answer' with
      | item item => exact .cons _ ⟨hnext, rfl⟩ (ih hnext [])
      | _ => exact .cons _ ⟨hnext, rfl⟩ (ih hnext [])
    | item item =>
      cases item with
      | error error =>
        have hpoll := (h.poll hkeep now batch (.failed error)).2
        rw [sparedSteps_cons_pos rfl]
        exact .cons _ ⟨hpoll, rfl⟩ (.rest true ⟨hpoll, rfl⟩)
      | ok change =>
        have hpasses : (Beat.item (.ok change)).passes keep = keep change := rfl
        have hrest := ih h (batch ++ [change])
        rw [List.filter_append] at hrest
        cases hk : keep change with
        | true =>
          rw [List.filter_cons_of_pos hk] at hrest
          rw [sparedSteps_cons_pos (hpasses.trans hk)]
          exact hrest
        | false =>
          rw [List.filter_cons_of_neg (by simp [hk]), List.filter_nil, List.append_nil] at hrest
          rw [sparedSteps_cons_neg (hpasses.trans hk)]
          exact hrest

theorem mirrors_hold (h : Hold.Alike p first second) (f : σ → τ) (now : Nat) (source : σ)
    (run : Run σ) :
    Mirrors (fun state other => Hold.Alike p state.1 other.1 ∧ other.2 = f state.2)
      (Run.hold now first source run)
      (Run.hold now second (f source) ((run.filter keep).map f)) := by
  unfold Run.hold
  rw [h.finished, h.sourceEnded]
  split
  · exact .rest true ⟨h, rfl⟩
  · split
    · exact mirrors_holdSteps hkeep h f now .waiting source [] []
    · exact mirrors_holdSteps hkeep h f now _ run.rest [] run.steps

end

end Run

namespace Stream

/-- The same stream, or a held one whose source is spared some changes that are no edges. -/
inductive HoldsAlike : Stream → Stream → Prop where
  | refl (stream : Stream) : HoldsAlike stream stream
  | held {p : Option EntityState → Bool} {keep : StateChange → Bool} {first second : Hold}
      (hkeep : ∀ change, keep change = false → ¬ IsEdge p change) (h : Hold.Alike p first second)
      (source : Stream) : HoldsAlike (.hold first source) (.hold second (.filter keep source))

theorem areInterchangeable_holdsAlike : AreInterchangeable HoldsAlike where
  refl := .refl
  owns stream other h slot := by
    cases h with
    | refl => rfl
    | held => rfl
  poll stream other h instant limit := by
    cases h with
    | refl => exact ⟨rfl, rfl, .refl _⟩
    | @held p keep first second hkeep h source =>
      have hmirrors := Run.mirrors_hold hkeep h (Stream.filter keep) instant.now source
        (source.run instant)
      refine (hmirrors.map ?_).take (.held hkeep h source) limit
      rintro ⟨first, source⟩ ⟨second, _⟩ ⟨h, rfl⟩
      exact .held hkeep h source

def replies : Stream → List (Instant × Option Nat) → List (List Item × PollStatus)
  | _, [] => []
  | stream, (instant, limit) :: polls =>
    ((stream.poll instant limit).1, (stream.poll instant limit).2.1) ::
      (stream.poll instant limit).2.2.replies polls

theorem AreInterchangeable.replies {related : Stream → Stream → Prop} (hi : AreInterchangeable related)
    {stream other : Stream} (h : related stream other) (polls : List (Instant × Option Nat)) :
    other.replies polls = stream.replies polls := by
  induction polls generalizing stream other with
  | nil => rfl
  | cons asked rest ih =>
    obtain ⟨instant, limit⟩ := asked
    obtain ⟨hitems, hstatus, hrest⟩ := hi.poll stream other h instant limit
    rw [Stream.replies, Stream.replies, hitems, hstatus, ih hrest]

end Stream

-- ---------------------------------------------------------------------------
-- Predicates of the state text
-- ---------------------------------------------------------------------------

/-- A predicate of the state text; a missing side and a state without text are alike to it. -/
def EntityState.byText (predicate : Option String → Bool) (state : Option EntityState) : Bool :=
  predicate (state.bind EntityState.state)

theorem not_isEdge_of_not_isTransition (predicate : Option String → Bool) {change : StateChange}
    (h : change.isTransition = false) : ¬ IsEdge (EntityState.byText predicate) change := by
  have heq : change.old.bind EntityState.state = change.new.bind EntityState.state := by
    simpa [StateChange.isTransition, StateChange.oldText, StateChange.newText] using h
  simp [IsEdge, EntityState.byText, heq]

/-- It makes no difference whether transitions are held or all changes: not to a held stream that is
visited, whatever its source gives; not to the polls of a stream at any instants; and not to anything
that comes of a session in which it is opened. -/
theorem held_transitions (predicate : Option String → Bool) (duration : Nat) :
    (∀ visits : List Visit,
      (Hold.ofPredicate (EntityState.byText predicate) duration).answers
          (visits.map fun visit =>
            { visit with batch := visit.batch.filter StateChange.isTransition }) =
        (Hold.ofPredicate (EntityState.byText predicate) duration).answers visits) ∧
    (∀ (source : Stream) (polls : List (Instant × Option Nat)),
      (source.transitions.held (fun _ => EntityState.byText predicate) duration).replies polls =
        (source.held (fun _ => EntityState.byText predicate) duration).replies polls) ∧
    ∀ (session : Session) (pick : List Nat → Nat) (name : String) (plan : Plan) (steps : List Step),
      session.outcomes (⟨pick, .subscribe name
          (.held (fun _ => EntityState.byText predicate) duration (.transitions plan))⟩ :: steps) =
        session.outcomes (⟨pick, .subscribe name
          (.held (fun _ => EntityState.byText predicate) duration plan)⟩ :: steps) := by
  have hkeep : ∀ change : StateChange, change.isTransition = false →
      ¬ IsEdge (EntityState.byText predicate) change :=
    fun _ => not_isEdge_of_not_isTransition predicate
  have halike := Hold.Alike.ofPredicate (EntityState.byText predicate) duration
  refine ⟨halike.answers hkeep, fun source polls => ?_, fun session pick name plan steps => ?_⟩
  · exact Stream.areInterchangeable_holdsAlike.replies (.held hkeep halike source) polls
  · have hplans (lengths : Nat → Nat) :
        ((Plan.held (fun _ => EntityState.byText predicate) duration plan).start lengths).HoldsAlike
          ((Plan.held (fun _ => EntityState.byText predicate) duration (.transitions plan)).start
            lengths) :=
      .held hkeep halike _
    exact Session.outcomes_subscribe Stream.areInterchangeable_holdsAlike hplans rfl session pick name
      steps

end HomeHub
