import HomeHub.Proofs.Feed
import HomeHub.Session.Action

/-!
# How sessions grow

Whatever is done to a session, each of its buses is changed by commands alone, so it keeps its
capacity and only adds to its log. The clock never goes back, and the stream under a name stays as it
is until it is polled, dropped or replaced. A reference to a bus is kept until it is dropped, and from
then on nothing is added to the log of the bus.
-/

namespace HomeHub

-- ---------------------------------------------------------------------------
-- Buses
-- ---------------------------------------------------------------------------

namespace Bus

/-- The same bus, after some commands. -/
def Precedes (bus later : Bus) : Prop := ∃ commands, bus.performAll commands = later

theorem Precedes.refl (bus : Bus) : bus.Precedes bus := ⟨[], rfl⟩

theorem Precedes.trans {first second third : Bus} (h : first.Precedes second)
    (h' : second.Precedes third) : first.Precedes third := by
  obtain ⟨commands, rfl⟩ := h
  obtain ⟨more, rfl⟩ := h'
  exact ⟨commands ++ more, List.foldl_append⟩

theorem precedes_perform (bus : Bus) (command : Command) : bus.Precedes (bus.perform command) :=
  ⟨[command], rfl⟩

theorem capacity_perform (bus : Bus) (command : Command) :
    (bus.perform command).capacity = bus.capacity := by
  cases command with
  | remove entityId =>
    cases hs : bus.currentState entityId <;> simp [perform, removeState, hs, apply, publish]
  | _ => rfl

theorem Precedes.capacity {bus later : Bus} (h : bus.Precedes later) :
    later.capacity = bus.capacity := by
  obtain ⟨commands, rfl⟩ := h
  induction commands generalizing bus with
  | nil => rfl
  | cons command rest ih => exact ih.trans (bus.capacity_perform command)

theorem Precedes.leads {bus later : Bus} (h : bus.Precedes later) :
    ∃ published, bus.Leads published later := by
  obtain ⟨commands, rfl⟩ := h
  exact bus.leads_performAll commands

theorem Precedes.log {bus later : Bus} (h : bus.Precedes later) : bus.log <+: later.log := by
  obtain ⟨published, hl⟩ := h.leads
  exact ⟨published, hl.log.symm⟩

end Bus

/-- What a session knows of a bus before and after some actions that let it keep its reference. A bus
without a reference is not written to. -/
structure BusSlot.Stays (entry next : BusSlot) : Prop where
  bus : entry.bus.Precedes next.bus
  referenced : next.referenced = entry.referenced
  log : entry.referenced = false → next.bus.log = entry.bus.log

namespace BusSlot

theorem Stays.refl (entry : BusSlot) : entry.Stays entry := ⟨.refl _, rfl, fun _ => rfl⟩

theorem Stays.trans {first second third : BusSlot} (h : first.Stays second) (h' : second.Stays third) :
    first.Stays third where
  bus := h.bus.trans h'.bus
  referenced := h'.referenced.trans h.referenced
  log hr := (h'.log (h.referenced.trans hr)).trans (h.log hr)

theorem stays_put {entry : BusSlot} (h : entry.referenced = true) {bus : Bus}
    (hp : entry.bus.Precedes bus) : entry.Stays { entry with bus := bus } where
  bus := hp
  referenced := rfl
  log hr := by simp [h] at hr

end BusSlot

namespace Session

def Grows (session later : Session) : Prop :=
  ∀ (slot : Nat) (entry : BusSlot), session.slots[slot]? = some entry →
    ∃ next : BusSlot, later.slots[slot]? = some next ∧ entry.bus.Precedes next.bus

def Stays (session later : Session) : Prop :=
  ∀ (slot : Nat) (entry : BusSlot), session.slots[slot]? = some entry →
    ∃ next : BusSlot, later.slots[slot]? = some next ∧ entry.Stays next

section
variable {session later : Session}

theorem grows_of_slots_eq (h : later.slots = session.slots) : session.Grows later :=
  fun _ entry hs => ⟨entry, h ▸ hs, .refl _⟩

theorem Grows.trans {last : Session} (h : session.Grows later) (h' : later.Grows last) :
    session.Grows last := by
  intro slot entry hs
  obtain ⟨next, hn, hp⟩ := h slot entry hs
  obtain ⟨final, hf, hp'⟩ := h' slot next hn
  exact ⟨final, hf, hp.trans hp'⟩

theorem stays_of_slots_eq (h : later.slots = session.slots) : session.Stays later :=
  fun _ entry hs => ⟨entry, h ▸ hs, .refl _⟩

theorem Stays.trans {last : Session} (h : session.Stays later) (h' : later.Stays last) :
    session.Stays last := by
  intro slot entry hs
  obtain ⟨next, hn, hp⟩ := h slot entry hs
  obtain ⟨final, hf, hp'⟩ := h' slot next hn
  exact ⟨final, hf, hp.trans hp'⟩

theorem Stays.grows (h : session.Stays later) : session.Grows later := fun slot entry hs =>
  (h slot entry hs).imp fun _ hnext => ⟨hnext.1, hnext.2.bus⟩

theorem getElem?_changeSlot {slot : Nat} {entry : BusSlot} (h : session.slots[slot]? = some entry)
    (place : Nat) (change : BusSlot → BusSlot) : (session.changeSlot place change).slots[slot]? =
      some (if place = slot then change entry else entry) := by
  by_cases heq : place = slot <;> simp [changeSlot, heq, h]

theorem length_changeSlot (session : Session) (place : Nat) (change : BusSlot → BusSlot) :
    (session.changeSlot place change).slots.length = session.slots.length :=
  List.length_modify ..

theorem stays_changeSlot {slot : Nat} {change : BusSlot → BusSlot}
    (h : ∀ entry, session.slots[slot]? = some entry → entry.Stays (change entry)) :
    session.Stays (session.changeSlot slot change) := by
  intro other entry hs
  refine ⟨_, getElem?_changeSlot hs slot change, ?_⟩
  split
  · rename_i heq
    exact h entry (heq ▸ hs)
  · exact .refl entry

theorem stays_putBus {slot : Nat} {bus next : Bus} (h : session.bus? slot = some bus)
    (hp : bus.Precedes next) : session.Stays (session.putBus slot next) := by
  refine stays_changeSlot fun entry hs => ?_
  obtain ⟨found, hf, hr, rfl⟩ := bus?_eq_some h
  obtain rfl := Option.some.inj (hs.symm.trans hf)
  exact BusSlot.stays_put hr hp

end

/-- A later session with the same references and streams. -/
structure Extends (session later : Session) : Prop where
  stays : session.Stays later
  places : later.slots.length = session.slots.length
  streams : later.streams = session.streams
  clock : session.clock ≤ later.clock

section
variable {session later : Session}

theorem Extends.refl (session : Session) : session.Extends session :=
  ⟨stays_of_slots_eq rfl, rfl, rfl, Nat.le_refl _⟩

theorem Extends.trans {last : Session} (h : session.Extends later) (h' : later.Extends last) :
    session.Extends last :=
  ⟨h.stays.trans h'.stays, h'.places.trans h.places, h'.streams.trans h.streams,
    Nat.le_trans h.clock h'.clock⟩

theorem extends_putBus {slot : Nat} {bus next : Bus} (h : session.bus? slot = some bus)
    (hp : bus.Precedes next) : session.Extends (session.putBus slot next) :=
  ⟨stays_putBus h hp, session.length_changeSlot .., rfl, Nat.le_refl _⟩

theorem extends_deliver {delivery : Delivery} (h : session.deliver delivery = .ok later) :
    session.Extends later := by
  unfold deliver at h
  cases hs : session.slots[delivery.bus]? with
  | none => simp [hs] at h
  | some entry =>
    rw [hs] at h
    cases hf : entry.refusal with
    | some error => simp [hf] at h
    | none =>
      simp only [hf, Except.ok.injEq] at h
      subst h
      refine ⟨stays_changeSlot fun found hf => ?_, session.length_changeSlot .., rfl, Nat.le_refl _⟩
      obtain rfl := Option.some.inj (hs.symm.trans hf)
      exact ⟨entry.bus.precedes_perform (.call delivery.call), rfl, fun _ => rfl⟩

theorem extends_deliverAll (session : Session) (deliveries : List Delivery) :
    session.Extends (session.deliverAll deliveries).2 := by
  induction deliveries generalizing session with
  | nil => exact .refl session
  | cons delivery rest ih =>
    unfold deliverAll
    cases hd : session.deliver delivery with
    | error error => exact .refl session
    | ok next => exact (extends_deliver hd).trans (ih next)

theorem extends_request (session : Session)
    (deliveries : Except ServiceCallError (List Delivery)) :
    session.Extends (session.request deliveries).2 := by
  cases deliveries with
  | error error => exact .refl session
  | ok deliveries => exact session.extends_deliverAll deliveries

theorem extends_onBus {slot : Nat} {act : Bus → Outcome × Session}
    (h : ∀ bus, session.bus? slot = some bus → session.Extends (act bus).2) :
    session.Extends (session.onBus slot act).2 := by
  unfold onBus
  cases hb : session.bus? slot with
  | none => exact .refl session
  | some bus => exact h bus hb

end

-- ---------------------------------------------------------------------------
-- Actions
-- ---------------------------------------------------------------------------

/-- Only what is about a stream changes streams, and only one action drops references. -/
theorem perform_cases (pick : List Nat → Nat) (session : Session) (action : Action) :
    (∃ name, action.stream? = some name) ∨ (∃ slot, action = .dropBus slot) ∨
      session.Extends (session.perform pick action).2 := by
  cases action with
  | setState slot now state =>
    exact .inr <| .inr <| extends_onBus fun bus hb =>
      extends_putBus hb (bus.precedes_perform (.set now state))
  | removeState slot entityId =>
    exact .inr <| .inr <| extends_onBus fun bus hb =>
      extends_putBus hb (bus.precedes_perform (.remove entityId))
  | setArea slot entityId area =>
    exact .inr <| .inr <| extends_onBus fun bus hb =>
      extends_putBus hb (bus.precedes_perform (.area entityId area))
  | call slot entityId service data =>
    exact .inr <| .inr <| extends_onBus fun bus hb => session.extends_request _
  | callMany members service data =>
    refine .inr <| .inr ?_
    simp only [perform]
    cases session.handles? members with
    | none => exact .refl session
    | some handles => exact session.extends_request _
  | setFailing slot failing =>
    exact .inr <| .inr <| extends_onBus fun bus hb =>
      ⟨stays_changeSlot fun entry _ => ⟨.refl _, rfl, fun _ => rfl⟩, session.length_changeSlot .., rfl,
        Nat.le_refl _⟩
  | dropBus slot => exact .inr (.inl ⟨slot, rfl⟩)
  | advance milliseconds => exact .inr <| .inr ⟨stays_of_slots_eq rfl, rfl, rfl, Nat.le_add_right _ _⟩
  | subscribe name plan => exact .inl ⟨name, rfl⟩
  | poll name limit => exact .inl ⟨name, rfl⟩
  | dropStream name => exact .inl ⟨name, rfl⟩

theorem perform_subscribe (pick : List Nat → Nat) (session : Session) (name : String) (plan : Plan) :
    session.perform pick (.subscribe name plan) =
      if plan.buses.all fun slot => (session.bus? slot).isSome then
        (.done, session.putStream name (plan.start session.logLength))
      else (.noBus, session) := by
  by_cases h : plan.buses.all fun slot => (session.bus? slot).isSome <;>
    simp only [perform, subscribe?, h, if_true, if_false, Bool.false_eq_true]

theorem perform_subscribe_of_buses (pick : List Nat → Nat) {session : Session} (name : String)
    {plan : Plan} (h : ∀ slot ∈ plan.buses, (session.bus? slot).isSome = true) :
    session.perform pick (.subscribe name plan) =
      (.done, session.putStream name (plan.start session.logLength)) := by
  rw [perform_subscribe, if_pos (List.all_eq_true.2 h)]

theorem perform_subscribe_of_bus (pick : List Nat → Nat) {session : Session} (name : String)
    {plan : Plan} {slot : Nat} {bus : Bus} (hb : session.bus? slot = some bus)
    (hp : plan.buses = [slot]) : session.perform pick (.subscribe name plan) =
      (.done, session.putStream name (plan.start session.logLength)) := by
  refine perform_subscribe_of_buses pick name fun other hm => ?_
  rw [hp, List.mem_singleton] at hm
  rw [hm, hb, Option.isSome_some]

theorem logLength_eq {session : Session} {slot : Nat} {bus : Bus} (h : session.bus? slot = some bus) :
    session.logLength slot = bus.log.length := by
  obtain ⟨entry, hs, -, rfl⟩ := bus?_eq_some h
  simp [logLength, hs]

theorem perform_stream {name : String} (pick : List Nat → Nat) (session : Session) {action : Action}
    (h : action.stream? = some name) :
    (session.perform pick action).2.slots = session.slots ∧
      (session.perform pick action).2.clock = session.clock ∧
      ∀ other, other ≠ name →
        (session.perform pick action).2.streams.get? other = session.streams.get? other := by
  cases action with
  | subscribe target plan =>
    obtain rfl := Option.some.inj h
    rw [perform_subscribe]
    split
    · exact ⟨rfl, rfl, fun other hne => (Table.get?_insert _ _ _ _).trans (if_neg hne.symm)⟩
    · exact ⟨rfl, rfl, fun _ _ => rfl⟩
  | poll target limit =>
    obtain rfl := Option.some.inj h
    simp only [perform, poll]
    cases session.streams.get? target with
    | none => exact ⟨rfl, rfl, fun _ _ => rfl⟩
    | some stream =>
      exact ⟨rfl, rfl, fun other hne => (Table.get?_insert _ _ _ _).trans (if_neg hne.symm)⟩
  | dropStream target =>
    obtain rfl := Option.some.inj h
    exact ⟨rfl, rfl, fun other hne => (Table.get?_erase _ _ _).trans (if_neg hne.symm)⟩
  | _ => simp [Action.stream?] at h

theorem grows_dropBus (session : Session) (slot : Nat) : session.Grows (session.dropBus slot) := by
  intro other entry hs
  refine ⟨_, getElem?_changeSlot hs slot _, ?_⟩
  split <;> exact .refl _

theorem perform_grows (pick : List Nat → Nat) (session : Session) (action : Action) :
    session.Grows (session.perform pick action).2 := by
  rcases perform_cases pick session action with ⟨name, h⟩ | ⟨slot, rfl⟩ | h
  · exact grows_of_slots_eq (perform_stream pick session h).1
  · exact session.grows_dropBus slot
  · exact h.stays.grows

theorem length_slots_perform (pick : List Nat → Nat) (session : Session) (action : Action) :
    (session.perform pick action).2.slots.length = session.slots.length := by
  rcases perform_cases pick session action with ⟨name, h⟩ | ⟨slot, rfl⟩ | h
  · rw [(perform_stream pick session h).1]
  · exact session.length_changeSlot ..
  · exact h.places

theorem clock_le_perform (pick : List Nat → Nat) (session : Session) (action : Action) :
    session.clock ≤ (session.perform pick action).2.clock := by
  rcases perform_cases pick session action with ⟨name, h⟩ | ⟨slot, rfl⟩ | h
  · exact Nat.le_of_eq (perform_stream pick session h).2.1.symm
  · exact Nat.le_refl _
  · exact h.clock

theorem streams_perform (pick : List Nat → Nat) (session : Session) {action : Action}
    (h : action.stream? = none) : (session.perform pick action).2.streams = session.streams := by
  rcases perform_cases pick session action with ⟨name, hs⟩ | ⟨slot, rfl⟩ | hextends
  · simp [h] at hs
  · rfl
  · exact hextends.streams

theorem get?_streams_perform {name : String} (pick : List Nat → Nat) (session : Session)
    {action : Action} (h : action.stream? ≠ some name) :
    (session.perform pick action).2.streams.get? name = session.streams.get? name := by
  cases hs : action.stream? with
  | none => rw [streams_perform pick session hs]
  | some other => exact (perform_stream pick session hs).2.2 name fun heq => h (heq ▸ hs)

-- ---------------------------------------------------------------------------
-- References
-- ---------------------------------------------------------------------------

section
variable {session : Session} {slot : Nat} {entry : BusSlot}

theorem stays_perform (pick : List Nat → Nat) {action : Action}
    (hs : session.slots[slot]? = some entry) (ha : action ≠ .dropBus slot) :
    ∃ next, (session.perform pick action).2.slots[slot]? = some next ∧ entry.Stays next := by
  rcases perform_cases pick session action with ⟨name, h⟩ | ⟨place, rfl⟩ | h
  · exact stays_of_slots_eq (perform_stream pick session h).1 slot entry hs
  · refine ⟨entry, (getElem?_changeSlot hs place _).trans (congrArg some (if_neg fun heq => ?_)), .refl _⟩
    exact ha (congrArg Action.dropBus heq)
  · exact h.stays slot entry hs

theorem getElem?_dropBus (hs : session.slots[slot]? = some entry) :
    (session.dropBus slot).slots[slot]? = some { entry with referenced := false } :=
  (getElem?_changeSlot hs slot _).trans (congrArg some (if_pos rfl))

/-- A reference that was dropped is not regained, and nothing is written without it. -/
theorem stays_perform_of_dropped (pick : List Nat → Nat) (hs : session.slots[slot]? = some entry)
    (hr : entry.referenced = false) (action : Action) :
    ∃ next, (session.perform pick action).2.slots[slot]? = some next ∧ entry.Stays next := by
  by_cases ha : action = .dropBus slot
  · subst ha
    exact ⟨_, getElem?_dropBus hs, .refl _, hr.symm, fun _ => rfl⟩
  · exact stays_perform pick hs ha

end

end Session

end HomeHub
