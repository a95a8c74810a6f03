import HomeHub.Proofs.Growth

/-!
# Runs of sessions

What holds of a session and of what a stream has replied holds behind any steps that keep the stream if
each step keeps it.
-/

namespace HomeHub

theorem Action.Keeps.cases {action : Action} {name : String} (h : action.Keeps name) :
    action.stream? ≠ some name ∨ ∃ limit, action = .poll name limit := by
  cases action with
  | subscribe other plan => exact .inl fun heq => h (Option.some.inj heq)
  | dropStream other => exact .inl fun heq => h (Option.some.inj heq)
  | poll other limit =>
    by_cases heq : other = name
    · exact .inr ⟨limit, heq ▸ rfl⟩
    · exact .inl fun hs => heq (Option.some.inj hs)
  | _ => exact .inl (by simp [Action.stream?])

namespace Session

def gave (name : String) (action : Action) (outcome : Outcome) : List Item :=
  (reply? name action outcome).toList.flatMap (·.1)

def given (pick : List Nat → Nat) (name : String) (session : Session) (actions : List Action) :
    List Item :=
  (session.replies name (actions.map (Step.mk pick))).flatMap (·.1)

theorem reply?_eq_none {name : String} {action : Action} (h : action.stream? ≠ some name)
    (outcome : Outcome) : reply? name action outcome = none := by
  cases outcome <;> simp [reply?, h]

theorem gave_eq_nil {name : String} {action : Action} (h : action.stream? ≠ some name)
    (outcome : Outcome) : gave name action outcome = [] := by
  rw [gave, reply?_eq_none h]
  rfl

theorem gave_poll (name : String) (limit : Option Nat) (items : List Item) (status : PollStatus) :
    gave name (.poll name limit) (.polled items status) = items := by
  simp [gave, reply?, Action.stream?]

section
variable {session : Session} {slot : Nat} {name : String} {entry : BusSlot} {stream : Stream}

theorem closed_eq_false (hs : session.slots[slot]? = some entry)
    (hn : session.streams.get? name = some stream) (ho : stream.owns slot = true) :
    session.closed slot = false := by
  have howned : session.owned slot = true :=
    List.any_eq_true.2 ⟨_, Table.mem_of_get?_eq_some hn, ho⟩
  simp [closed, hs, howned]

theorem perform_poll (pick : List Nat → Nat) (limit : Option Nat)
    (hn : session.streams.get? name = some stream) :
    session.perform pick (.poll name limit) =
      (.polled (stream.poll (session.instant pick) limit).1
          (stream.poll (session.instant pick) limit).2.1,
        session.putStream name (stream.poll (session.instant pick) limit).2.2) := by
  simp only [perform, poll, hn, Option.map_some]

theorem perform_poll_missing (pick : List Nat → Nat) (limit : Option Nat)
    (hn : session.streams.get? name = none) :
    session.perform pick (.poll name limit) = (.noStream, session) := by
  simp only [perform, poll, hn, Option.map_none]

theorem buses_instant (pick : List Nat → Nat) (hs : session.slots[slot]? = some entry) :
    (session.instant pick).buses[slot]? = some entry.bus := by
  simp [instant, hs]

end

theorem performSteps_append (session : Session) (first second : List Step) :
    session.performSteps (first ++ second) = (session.performSteps first).performSteps second := by
  induction first generalizing session with
  | nil => rfl
  | cons step rest ih => exact ih _

theorem performAll_append (pick : List Nat → Nat) (session : Session) (first second : List Action) :
    session.performAll pick (first ++ second) =
      (session.performAll pick first).performAll pick second := by
  rw [performAll, List.map_append]
  exact session.performSteps_append _ _

theorem performAll_concat (pick : List Nat → Nat) (session : Session) (actions : List Action)
    (action : Action) : session.performAll pick (actions ++ [action]) =
      ((session.performAll pick actions).perform pick action).2 :=
  session.performAll_append pick actions [action]

theorem length_slots_performSteps (session : Session) (steps : List Step) :
    (session.performSteps steps).slots.length = session.slots.length := by
  induction steps generalizing session with
  | nil => rfl
  | cons step rest ih => exact (ih _).trans (length_slots_perform step.pick session step.action)

theorem grows_performSteps (session : Session) (steps : List Step) :
    session.Grows (session.performSteps steps) := by
  induction steps generalizing session with
  | nil => exact grows_of_slots_eq rfl
  | cons step rest ih => exact (perform_grows step.pick session step.action).trans (ih _)

theorem grows_performAll (pick : List Nat → Nat) (session : Session) (actions : List Action) :
    session.Grows (session.performAll pick actions) :=
  session.grows_performSteps _

/-- What holds of a session and the replies so far, and is kept by every step that keeps a stream,
holds behind all such steps. -/
theorem performSteps_induction {name : String} {motive : Session → List (List Item × PollStatus) → Prop}
    (hstep : ∀ (session : Session) (earlier : List (List Item × PollStatus)) (step : Step),
      step.action.Keeps name → motive session earlier →
        motive (session.perform step.pick step.action).2
          (earlier ++ (reply? name step.action (session.perform step.pick step.action).1).toList))
    {session : Session} (earlier : List (List Item × PollStatus)) (h : motive session earlier) {steps : List Step}
    (hk : ∀ step ∈ steps, step.action.Keeps name) :
    motive (session.performSteps steps) (earlier ++ session.replies name steps) := by
  induction steps generalizing session earlier with
  | nil =>
    rw [replies, List.append_nil]
    exact h
  | cons step rest ih =>
    obtain ⟨ha, hr⟩ := List.forall_mem_cons.1 hk
    have hlast := ih _ (hstep session earlier step ha h) hr
    rwa [List.append_assoc] at hlast

end Session

end HomeHub
