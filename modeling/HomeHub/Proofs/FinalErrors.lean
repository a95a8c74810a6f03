import HomeHub.Proofs.ClosingRuns
import HomeHub.Proofs.Subscription

/-!
# Errors come last

To read up to an error, to merge and to hold each make a stream that is over behind its first error,
whatever it is made from. A filter makes such a stream from another one. So whatever is put together
from handles gives changes, then at most one error, and from then on nothing but the end.
-/

namespace HomeHub

inductive Plan.OfHandles : Plan → Prop where
  | entity (slot : Nat) (entityId : String) : OfHandles (.entity slot entityId)
  | transitions {plan : Plan} (h : OfHandles plan) : OfHandles (.transitions plan)
  | untilError {plan : Plan} (h : OfHandles plan) : OfHandles (.untilError plan)
  | merged {plans : List Plan} (h : ∀ plan ∈ plans, OfHandles plan) : OfHandles (.merged plans)
  | held {plan : Plan} (predicate : Nat → Option EntityState → Bool) (duration : Nat)
      (h : OfHandles plan) : OfHandles (.held predicate duration plan)

namespace Stream

inductive StopsAtError : Stream → Prop where
  | filter {source : Stream} (keep : StateChange → Bool) (h : StopsAtError source) :
      StopsAtError (.filter keep source)
  | untilError (done : Bool) (source : Stream) : StopsAtError (.untilError done source)
  | merge (done : Bool) (branches : List Stream) : StopsAtError (.merge done branches)
  | hold (state : Hold) (source : Stream) : StopsAtError (.hold state source)

inductive IsOver : Stream → Prop where
  | filter {source : Stream} (keep : StateChange → Bool) (h : IsOver source) :
      IsOver (.filter keep source)
  | untilError (source : Stream) : IsOver (.untilError true source)
  | merge (branches : List Stream) : IsOver (.merge true branches)
  | hold {state : Hold} (h : state.finished = true) (source : Stream) : IsOver (.hold state source)

end Stream

theorem Plan.OfHandles.stopsAtError {plan : Plan} (h : plan.OfHandles) (lengths : Nat → Nat) :
    (plan.start lengths).StopsAtError := by
  induction h with
  | entity slot entityId => exact .untilError ..
  | transitions _ ih => exact .filter _ ih
  | untilError => exact .untilError ..
  | merged => exact .merge ..
  | held => exact .hold ..

namespace Stream

theorem StopsAtError.run {stream : Stream} (h : stream.StopsAtError) (instant : Instant) :
    (stream.run instant).Closes StopsAtError IsOver := by
  induction h with
  | filter keep _ ih =>
    exact (ih.filter keep).map (fun _ => .filter keep) fun _ => .filter keep
  | untilError done source =>
    cases done with
    | true => exact .rest (.untilError ..) fun _ => .untilError source
    | false =>
      rw [Stream.run, if_neg Bool.false_ne_true]
      refine (Run.closes_untilError _).map (fun _ _ => .untilError ..) ?_
      rintro ⟨_, next⟩ rfl
      exact .untilError next
  | merge done branches =>
    cases done with
    | true => exact .rest (.merge ..) fun _ => .merge branches
    | false =>
      rw [Stream.run, if_neg Bool.false_ne_true]
      refine (Run.closes_untilError _).map (fun _ _ => .merge ..) ?_
      rintro ⟨_, next⟩ rfl
      exact .merge next
  | hold state source =>
    exact (Run.closes_hold ..).map (fun _ _ => .hold ..) fun next hf => .hold hf next.2

theorem IsOver.run {stream : Stream} (h : stream.IsOver) (instant : Instant) :
    stream.run instant = ⟨[], stream, true⟩ := by
  induction h with
  | filter keep _ ih => rw [Stream.run, ih]; rfl
  | untilError => rfl
  | merge => rfl
  | hold hf => simp only [Stream.run, Run.hold, hf, if_true]; rfl

-- ---------------------------------------------------------------------------
-- Polls
-- ---------------------------------------------------------------------------

theorem StopsAtError.poll {stream : Stream} (h : stream.StopsAtError) (instant : Instant)
    (limit : Option Nat) : Run.Answered StopsAtError IsOver (stream.poll instant limit) :=
  (h.run instant).answered h limit

theorem IsOver.poll {stream : Stream} (h : stream.IsOver) (instant : Instant) {limit : Option Nat}
    (hl : limit ≠ some 0) : stream.poll instant limit = ([], .ended, stream) := by
  rw [Stream.poll, h.run, Run.take, Run.takeSteps_nil hl]
  rfl

/-- A stream of some kind that was polled, and the replies. Either it has given changes only and told
no end, or it is over and has given at most one error, behind all changes. -/
inductive HasReplied : Stream → List (List Item × PollStatus) → Prop where
  | going {stream : Stream} {replies : List (List Item × PollStatus)} (changes : List StateChange)
      (h : stream.StopsAtError) (hi : replies.flatMap (·.1) = changes.map .ok)
      (hs : ∀ reply ∈ replies, reply.2 ≠ .ended) : HasReplied stream replies
  | done {stream : Stream} {replies : List (List Item × PollStatus)} (changes : List StateChange)
      (errors : List HubError) (h : stream.IsOver) (hl : errors.length ≤ 1)
      (hi : replies.flatMap (·.1) = changes.map .ok ++ errors.map .error) :
      HasReplied stream replies

theorem HasReplied.poll {stream : Stream} {replies : List (List Item × PollStatus)}
    (h : stream.HasReplied replies) (instant : Instant) (limit : Option Nat) :
    (stream.poll instant limit).2.2.HasReplied
      (replies ++ [((stream.poll instant limit).1, (stream.poll instant limit).2.1)]) := by
  cases h with
  | done changes errors h hl hi =>
    by_cases hlimit : limit = some 0
    · rw [hlimit, poll_zero]
      exact .done changes errors h hl (by simp [hi])
    · rw [h.poll instant hlimit]
      exact .done changes errors h hl (by simp [hi])
  | going changes h hi hs =>
    have hanswer := h.poll instant limit
    generalize stream.poll instant limit = answer at hanswer
    cases hanswer with
    | failed more error hk ho =>
      exact .done (changes ++ more) [error] ho (by simp) (by simp [hi])
    | @going more status last hk ho =>
      by_cases he : status = .ended
      · exact .done (changes ++ more) [] (ho he) (by simp) (by simp [hi])
      · refine .going (changes ++ more) hk (by simp [hi]) fun reply hr => ?_
        rcases List.mem_append.1 hr with hr | hr
        · exact hs reply hr
        · rw [List.mem_singleton.1 hr]
          exact he

end Stream

-- ---------------------------------------------------------------------------
-- Sessions
-- ---------------------------------------------------------------------------

namespace Session

section
variable {session : Session} {name : String} {stream : Stream}
  {earlier : List (List Item × PollStatus)}

theorem hasReplied_perform (hn : session.streams.get? name = some stream)
    (h : stream.HasReplied earlier) (pick : List Nat → Nat) {action : Action}
    (hk : action.Keeps name) :
    ∃ next, (session.perform pick action).2.streams.get? name = some next ∧
      next.HasReplied
        (earlier ++ (reply? name action (session.perform pick action).1).toList) := by
  rcases hk.cases with hne | ⟨limit, rfl⟩
  · refine ⟨stream, (get?_streams_perform pick session hne).trans hn, ?_⟩
    rw [reply?_eq_none hne]
    simpa using h
  · rw [perform_poll pick limit hn]
    refine ⟨_, Table.get?_insert_self .., ?_⟩
    simpa [reply?, Action.stream?] using h.poll (session.instant pick) limit

theorem hasReplied_performSteps (hn : session.streams.get? name = some stream)
    (h : stream.HasReplied earlier) {steps : List Step}
    (hk : ∀ step ∈ steps, step.action.Keeps name) :
    ∃ next, (session.performSteps steps).streams.get? name = some next ∧
      next.HasReplied (earlier ++ session.replies name steps) := by
  refine performSteps_induction (motive := fun session replies =>
    ∃ next, session.streams.get? name = some next ∧ next.HasReplied replies) ?_ earlier
    ⟨stream, hn, h⟩ hk
  rintro session earlier step ha ⟨stream, hn, h⟩
  exact hasReplied_perform hn h step.pick ha

end

/-- A stream that is put together from handles, from the moment it is opened and through whatever is
done besides. Its polls give changes and behind them at most one error, and once an error was given
or the end was told, every further poll tells the end and gives nothing. -/
theorem errors_come_last (pick : List Nat → Nat) (session : Session) {plan : Plan}
    (h : plan.OfHandles) (hbuses : ∀ slot ∈ plan.buses, (session.bus? slot).isSome = true)
    (name : String) (steps : List Step) (keeps : ∀ step ∈ steps, step.action.Keeps name) :
    let opened := (session.perform pick (.subscribe name plan)).2
    let replies := opened.replies name steps
    (∃ (changes : List StateChange) (errors : List HubError), errors.length ≤ 1 ∧
      replies.flatMap (·.1) = changes.map .ok ++ errors.map .error) ∧
    ((∃ reply ∈ replies, reply.2 = .ended ∨ ∃ error, .error error ∈ reply.1) →
      ∀ choice limit, limit ≠ some 0 →
        ((opened.performSteps steps).perform choice (.poll name limit)).1 = .polled [] .ended) := by
  intro opened replies
  have hopened : opened.streams.get? name = some (plan.start session.logLength) := by
    simp only [opened, perform, subscribe?, List.all_eq_true.2 hbuses, if_true]
    exact (Table.get?_insert _ _ _ _).trans (if_pos rfl)
  have hstart : (plan.start session.logLength).HasReplied [] :=
    .going [] (h.stopsAtError _) rfl (by simp)
  obtain ⟨stream, hlast, hreplied⟩ := hasReplied_performSteps hopened hstart keeps
  rw [List.nil_append] at hreplied
  cases hreplied with
  | done changes errors hover hl hi =>
    refine ⟨⟨changes, errors, hl, hi⟩, fun _ choice limit hlimit => ?_⟩
    rw [perform_poll choice limit hlast, hover.poll _ hlimit]
  | going changes _ hi hs =>
    refine ⟨⟨changes, [], by simp, by simpa using hi⟩, ?_⟩
    rintro ⟨reply, hr, he | ⟨error, he⟩⟩
    · exact (hs reply hr he).elim
    · have hm : .error error ∈ replies.flatMap (·.1) := List.mem_flatMap.2 ⟨reply, hr, he⟩
      rw [hi] at hm
      simp at hm

def nestedPlan : Plan :=
  .held (fun _ state => state.isSome) 0
    (.transitions (.merged [.entity 0 "light.a", .transitions (.entity 0 "light.b")]))

def lateSteps : List Step :=
  (flicker ++ [Action.poll "changes" none]).map (Step.mk fun _ => 1)

theorem errors_come_last_flicker :
    nestedPlan.OfHandles ∧ (∀ slot ∈ nestedPlan.buses, ((ofBuses [tightBus]).bus? slot).isSome = true) ∧
      (∀ step ∈ lateSteps, step.action.Keeps "changes") ∧
      let opened := ((ofBuses [tightBus]).perform (fun _ => 0) (.subscribe "changes" nestedPlan)).2
      opened.replies "changes" lateSteps = [([.error (.bus (.lagged 1))], .ended)] ∧
        ((opened.performSteps lateSteps).perform (fun _ => 0) (.poll "changes" none)).1 =
          .polled [] .ended := by
  have handles : nestedPlan.OfHandles := by
    refine .held _ _ (.transitions (.merged fun plan hm => ?_))
    rcases List.mem_cons.1 hm with rfl | hm
    · exact .entity ..
    · rw [List.mem_singleton.1 hm]
      exact .transitions (.entity ..)
  have buses : ∀ slot ∈ nestedPlan.buses, ((ofBuses [tightBus]).bus? slot).isSome = true := by
    decide
  have keeps : ∀ step ∈ lateSteps, step.action.Keeps "changes" := by
    simp [lateSteps, flicker, Action.Keeps]
  have replied : ((ofBuses [tightBus]).perform (fun _ => 0) (.subscribe "changes" nestedPlan)).2.replies
      "changes" lateSteps = [([.error (.bus (.lagged 1))], .ended)] := rfl
  refine ⟨handles, buses, keeps, replied, ?_⟩
  have final := (errors_come_last (fun _ => 0) _ handles buses "changes" _ keeps).2
  exact final ⟨_, replied ▸ List.mem_singleton_self _, .inl rfl⟩ (fun _ => 0) none (by simp)

end Session

end HomeHub
