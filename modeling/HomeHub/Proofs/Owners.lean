import HomeHub.Proofs.OpenStreams
import HomeHub.Proofs.Ownership

/-!
# Owners of the buses of a session

A session keeps its reference to a bus until it drops it, and the streams that it has opened and not
dropped own the buses of their handles. Without any such owner a bus is closed, and it stays closed:
neither a reference nor a handle can be had of it any more.
-/

namespace HomeHub

namespace Plan

mutual
theorem handles_subset_buses : ∀ plan : Plan, plan.handles ⊆ plan.buses
  | .bus _ => List.nil_subset _
  | .entity _ _ => List.Subset.refl _
  | .items _ => List.nil_subset _
  | .transitions plan => plan.handles_subset_buses
  | .untilError plan => plan.handles_subset_buses
  | .merged plans => handlesOfAll_subset_busesOfAll plans
  | .held _ _ plan => plan.handles_subset_buses
theorem handlesOfAll_subset_busesOfAll :
    ∀ plans : List Plan, handlesOfAll plans ⊆ busesOfAll plans
  | [] => List.nil_subset _
  | plan :: rest =>
    List.append_subset.2 ⟨List.subset_append_of_subset_left _ plan.handles_subset_buses,
      List.subset_append_of_subset_right _ (handlesOfAll_subset_busesOfAll rest)⟩
end

end Plan

-- ---------------------------------------------------------------------------
-- Streams that own some buses
-- ---------------------------------------------------------------------------

namespace Stream

/-- A stream that owns some buses and keeps them for as long as it is there. -/
structure Holds (leaf : Stream → Prop) (slots : List Nat) (stream : Stream) : Prop where
  kept : ∀ slot, stream.Kept leaf (keeping slot)
  owns : ∀ slot, stream.owns slot = true ↔ slot ∈ slots

theorem holds_start (lengths : Nat → Nat) (plan : Plan) :
    (plan.start lengths).Holds IsLeaf plan.handles :=
  ⟨fun _ => .inl (plan.live_start lengths _), fun slot => plan.owns_start lengths slot⟩

theorem holds_start_of_handles {plan : Plan} (h : plan.OfHandles) (lengths : Nat → Nat) :
    (plan.start lengths).Holds (IsHandle plan.buses) plan.buses :=
  ⟨fun _ => .inl (h.live_start (List.Subset.refl _)),
    fun slot => h.handles_eq ▸ plan.owns_start lengths slot⟩

theorem Holds.poll {leaf : Stream → Prop} {slots : List Nat} {stream : Stream}
    (h : stream.Holds leaf slots) {instant : Instant} {expected : HubError → Prop}
    (law : ∀ watched, RunSteadily leaf watched instant.closed expected)
    (ho : ∀ slot ∈ slots, instant.closed slot = false) (limit : Option Nat) :
    (stream.poll instant limit).2.2.Holds leaf slots ∧
      ∀ error, .error error ∈ (stream.poll instant limit).1 → expected error := by
  have hspares : ∀ slot, 0 < stream.feeds (keeping slot) → Spares (keeping slot) instant.closed := by
    intro slot hpos other owning hkeeping
    obtain ⟨-, rfl⟩ : owning = true ∧ other = slot := by simpa [keeping] using hkeeping
    exact ho other ((h.owns other).1 ((stream.owns_eq_true other).2 hpos))
  have hpoll := fun slot => (h.kept slot).poll (law _) (hspares slot) limit
  refine ⟨⟨fun slot => (hpoll slot).1.1, fun slot => ?_⟩, (hpoll 0).2⟩
  rw [owns_eq_true, (hpoll slot).1.2, ← owns_eq_true]
  exact h.owns slot

end Stream

namespace Session

-- ---------------------------------------------------------------------------
-- References
-- ---------------------------------------------------------------------------

section
variable {session : Session} {slot : Nat} {entry : BusSlot}

theorem lt_length_of_bus? (h : (session.bus? slot).isSome = true) : slot < session.slots.length := by
  obtain ⟨bus, hb⟩ := Option.isSome_iff_exists.1 h
  obtain ⟨entry, hs, -⟩ := bus?_eq_some hb
  exact (List.getElem?_eq_some_iff.1 hs).1

theorem referenced_performSteps (hs : session.slots[slot]? = some entry) (steps : List Step) :
    ∃ next, (session.performSteps steps).slots[slot]? = some next ∧
      (next.referenced = true ↔ entry.referenced = true ∧ ∀ step ∈ steps, step.action ≠ .dropBus slot) := by
  induction steps generalizing session entry with
  | nil => exact ⟨entry, hs, by simp⟩
  | cons step rest ih =>
    by_cases ha : step.action = .dropBus slot
    · have hdropped := getElem?_dropBus hs
      obtain ⟨next, hn, hr⟩ := ih hdropped
      refine ⟨next, ?_, ?_⟩
      · rw [performSteps, ha]
        exact hn
      · simp [hr, ha]
    · obtain ⟨next, hn, hstays⟩ := stays_perform step.pick hs ha
      obtain ⟨last, hl, hr⟩ := ih hn
      exact ⟨last, hl, by simp [hr, hstays.referenced, ha]⟩

end

-- ---------------------------------------------------------------------------
-- Open streams
-- ---------------------------------------------------------------------------

def HasOpened (session : Session) (plans : Table Plan) : Prop :=
  session.OpenedFor (fun stream plan => stream.Holds Stream.IsLeaf plan.handles ∧
    ∀ slot ∈ plan.handles, slot < session.slots.length) plans

section
variable {session : Session} {plans : Table Plan} {slot : Nat} {entry : BusSlot} {name : String}

theorem hasOpened_ofBuses (buses : List Bus) : (ofBuses buses).HasOpened [] :=
  openedFor_ofBuses buses _

theorem HasOpened.owned_iff (h : session.HasOpened plans) (slot : Nat) : session.owned slot = true ↔
    ∃ name plan, plans.get? name = some plan ∧ slot ∈ plan.handles := by
  constructor
  · intro howned
    obtain ⟨⟨name, stream⟩, hm, howns⟩ := List.any_eq_true.1 howned
    obtain ⟨plan, hp, hholds, -⟩ := h.exists_plan (h.ascending.get?_of_mem hm)
    exact ⟨name, plan, hp, (hholds.owns slot).1 howns⟩
  · rintro ⟨name, plan, hp, hslot⟩
    obtain ⟨stream, hn, hholds, -⟩ := h.exists_stream hp
    exact List.any_eq_true.2 ⟨_, Table.mem_of_get?_eq_some hn, (hholds.owns slot).2 hslot⟩

theorem HasOpened.closed_iff (h : session.HasOpened plans) (hs : session.slots[slot]? = some entry) :
    session.closed slot = true ↔
      entry.referenced = false ∧ ∀ name plan, plans.get? name = some plan → slot ∉ plan.handles := by
  have hopen : session.owned slot = false ↔
      ∀ name plan, plans.get? name = some plan → slot ∉ plan.handles := by
    rw [← Bool.not_eq_true, h.owned_iff]
    simp
  simp [closed, hs, hopen]

theorem retains_holds {count : Nat} (hc : session.slots.length = count) :
    session.Retains fun stream plan => stream.Holds Stream.IsLeaf plan.handles ∧
      ∀ slot ∈ plan.handles, slot < count := by
  subst hc
  constructor
  case opened =>
    refine fun plan hbuses => ⟨Stream.holds_start _ plan, fun slot hslot => ?_⟩
    exact lt_length_of_bus? (hbuses slot (plan.handles_subset_buses hslot))
  case polled =>
    rintro name stream plan hn ⟨hholds, hpresent⟩ pick limit
    refine ⟨(hholds.poll (fun watched => Stream.runSteadily_isLeaf watched _) ?_ limit).1, hpresent⟩
    -- the polled stream is open itself and so keeps its buses open
    intro slot hslot
    have hs := List.getElem?_eq_getElem (hpresent slot hslot)
    exact closed_eq_false hs hn ((hholds.owns slot).2 hslot)

theorem HasOpened.perform (h : session.HasOpened plans) (pick : List Nat → Nat) (action : Action) :
    (session.perform pick action).2.HasOpened (session.plansAfter plans action) := by
  rw [HasOpened, length_slots_perform]
  exact OpenedFor.perform h (retains_holds rfl) pick action

theorem HasOpened.performSteps (h : session.HasOpened plans) (steps : List Step) :
    (session.performSteps steps).HasOpened (session.openPlans plans steps) := by
  rw [HasOpened, length_slots_performSteps]
  exact OpenedFor.performSteps h fun front _ => retains_holds (length_slots_performSteps session front)

-- ---------------------------------------------------------------------------
-- Closing
-- ---------------------------------------------------------------------------

theorem get?_plansAfter {action : Action} {plan : Plan}
    (h : (session.plansAfter plans action).get? name = some plan) :
    plans.get? name = some plan ∨ ∀ slot ∈ plan.handles, (session.bus? slot).isSome = true := by
  cases action with
  | subscribe target opened =>
    simp only [plansAfter] at h
    split at h
    · rename_i hbuses
      rw [Table.get?_insert] at h
      split at h
      · cases h
        exact .inr fun slot hslot => List.all_eq_true.1 hbuses slot (plan.handles_subset_buses hslot)
      · exact .inl h
    · exact .inl h
  | dropStream target =>
    rw [plansAfter, Table.get?_erase] at h
    split at h
    · simp at h
    · exact .inl h
  | _ => exact .inl h

/-- A closed bus stays closed, and nothing is added to its log. -/
theorem HasOpened.closed_perform (h : session.HasOpened plans) (hs : session.slots[slot]? = some entry)
    (hc : session.closed slot = true) (pick : List Nat → Nat) (action : Action) :
    (session.perform pick action).2.closed slot = true ∧
      ∃ next, (session.perform pick action).2.slots[slot]? = some next ∧
        entry.bus.Precedes next.bus ∧ next.bus.log = entry.bus.log := by
  obtain ⟨hr, hplans⟩ := (h.closed_iff hs).1 hc
  obtain ⟨next, hn, hstays⟩ := stays_perform_of_dropped pick hs hr action
  refine ⟨((h.perform pick action).closed_iff hn).2 ⟨hstays.referenced.trans hr, ?_⟩,
    next, hn, hstays.bus, hstays.log hr⟩
  intro name plan hp hslot
  rcases get?_plansAfter hp with hp | hbuses
  · exact hplans name plan hp hslot
  · have hbus := hbuses slot hslot
    simp [bus?, hs, hr] at hbus

end

/-- Whether a bus has an owner behind steps that start with all references: the session, or an open
stream with a handle on the bus. -/
def HasOwner (buses : List Bus) (steps : List Step) (slot : Nat) : Prop :=
  (∀ step ∈ steps, step.action ≠ .dropBus slot) ∨
    ∃ name plan, ((ofBuses buses).openPlans [] steps).get? name = some plan ∧ slot ∈ plan.handles

/-- A bus is closed exactly if it has no owner. -/
theorem closed_performSteps {buses : List Bus} {slot : Nat} (h : slot < buses.length)
    (steps : List Step) :
    ((ofBuses buses).performSteps steps).closed slot = true ↔ ¬ HasOwner buses steps slot := by
  have hs : (ofBuses buses).slots[slot]? = some ⟨buses[slot], true, none⟩ := by
    simp [ofBuses, h]
  obtain ⟨entry, hn, hr⟩ := referenced_performSteps hs steps
  rw [((hasOpened_ofBuses buses).performSteps steps).closed_iff hn, HasOwner, not_or,
    ← Bool.not_eq_true, hr]
  simp

end Session

end HomeHub
