import HomeHub.Proofs.Debounce
import HomeHub.Proofs.HeldReader
import HomeHub.Proofs.Subscription

/-!
# Held streams in a session

The held stream of an entity, from the moment it is opened and through whatever is done besides. As
long as it is not over, it is the state that some visits lead to, in front of a reader; what the visits
took in are the changes of the entity that the reader has passed, each at the time of the poll that
passed it.
-/

namespace HomeHub

-- ---------------------------------------------------------------------------
-- Visits to a source that goes on
-- ---------------------------------------------------------------------------

section
variable {visits : List Visit}

theorem Visit.closing_of_waiting (h : ∀ visit ∈ visits, visit.ending = .waiting) :
    Visit.closing visits = .waiting := by
  induction visits with
  | nil => rfl
  | cons visit rest ih =>
    obtain ⟨hv, hr⟩ := List.forall_mem_cons.1 h
    rw [closing, if_pos hv, ih hr]

theorem Visit.drained_append_of_waiting (h : ∀ visit ∈ visits, visit.ending = .waiting)
    (later : List Visit) : Visit.drained (visits ++ later) = Visit.drained visits ++ Visit.drained later := by
  rw [drained_append, if_pos (closing_of_waiting h)]

theorem Visit.exists_of_mem_drained {taken : Nat} {change : StateChange}
    (h : (taken, change) ∈ Visit.drained visits) : ∃ visit ∈ visits, visit.now = taken := by
  induction visits with
  | nil => simp [drained] at h
  | cons visit rest ih =>
    rw [drained, List.mem_append] at h
    rcases h with h | h
    · obtain ⟨_, -, heq⟩ := List.mem_map.1 h
      exact ⟨visit, by simp, (Prod.mk.inj heq).1⟩
    · split at h
      · obtain ⟨other, ho, hn⟩ := ih h
        exact ⟨other, by simp [ho], hn⟩
      · simp at h

theorem Hold.IsOpen.after {hold : Hold} (h : hold.IsOpen)
    (hw : ∀ visit ∈ visits, visit.ending = .waiting) : (hold.after visits).IsOpen := by
  induction visits generalizing hold with
  | nil => exact h
  | cons visit rest ih =>
    obtain ⟨hv, hr⟩ := List.forall_mem_cons.1 hw
    have hpoll : hold.visit visit = (hold.drain visit.now visit.batch .waiting).expire visit.now :=
      (congrArg (hold.poll visit.now visit.batch) hv).trans (h.poll visit.now visit.batch)
    have hnext : (hold.visit visit).2.IsOpen :=
      hpoll ▸ ((h.drain visit.now visit.batch).expire visit.now).1
    exact ih hnext hr

end

-- ---------------------------------------------------------------------------
-- Sessions with a held stream
-- ---------------------------------------------------------------------------

theorem Stream.owns_held (hold : Hold) (slot cursor : Nat) (entityId : String) :
    (Stream.hold hold (.ofEntity slot cursor entityId)).owns slot = true :=
  owns_ofEntity slot cursor entityId

def ownChanges (entityId : String) (changes : List StateChange) : List StateChange :=
  changes.filter (·.entityId == entityId)

namespace Session

def Reaches (session : Session) (slot : Nat) (name entityId : String) (cursor : Nat) : Prop :=
  ∃ hold, session.streams.get? name = some (.hold hold (.ofEntity slot cursor entityId))

def IsOver (session : Session) (name : String) : Prop :=
  ∃ hold source, session.streams.get? name = some (.hold hold source) ∧ hold.finished = true

/-- A held stream that was opened when its bus was as given, after actions and the visits that they
paid to the hold, with what the bus has published since and how much of that the reader has passed. -/
structure Holds (pick : List Nat → Nat) (opened : Session) (slot : Nat) (name entityId : String)
    (bus : Bus) (p : Option EntityState → Bool) (d : Nat) (actions : List Action) (visits : List Visit)
    (entry : BusSlot) (published : List StateChange) (read : Nat) : Prop where
  found : (opened.performAll pick actions).slots[slot]? = some entry
  capacity : entry.bus.capacity = bus.capacity
  leads : bus.Leads published entry.bus
  named : (opened.performAll pick actions).streams.get? name =
    some (.hold ((Hold.ofPredicate p d).after visits) (.ofEntity slot (bus.log.length + read) entityId))
  read_le : read ≤ published.length
  drained : (Visit.drained visits).map Prod.snd = ownChanges entityId (published.take read)
  waiting : ∀ visit ∈ visits, visit.ending = .waiting
  past : ∀ visit ∈ visits, visit.now ≤ (opened.performAll pick actions).clock
  ordered : visits.Pairwise fun first second => first.now ≤ second.now
  /-- The reader had passed a drained change by the time at which it was drained. -/
  taken : ∀ place time change, (Visit.drained visits)[place]? = some (time, change) →
    ∃ earlier passed, earlier <+: actions ∧ passed ≤ published.length ∧
      place < (ownChanges entityId (published.take passed)).length ∧
      (opened.performAll pick earlier).clock = time ∧
      (opened.performAll pick earlier).Reaches slot name entityId (bus.log.length + passed)

section
variable {pick : List Nat → Nat} {opened : Session} {slot : Nat} {name entityId : String} {bus : Bus}
  {p : Option EntityState → Bool} {d : Nat} {actions : List Action} {visits : List Visit}
  {entry : BusSlot} {published : List StateChange} {read : Nat} {limit : Option Nat}

theorem holds_subscribe (pick : List Nat → Nat) {session : Session} (h : session.bus? slot = some bus)
    (name entityId : String) (p : Option EntityState → Bool) (d : Nat) :
    ∃ entry, Holds pick
      (session.perform pick (.subscribe name (.held (fun _ => p) d (.entity slot entityId)))).2
      slot name entityId bus p d [] [] entry [] 0 := by
  rw [perform_subscribe_of_bus pick name h rfl, Plan.start, Plan.start, logLength_eq h]
  obtain ⟨entry, hs, -, rfl⟩ := bus?_eq_some h
  exact ⟨entry, hs, rfl, .refl _, Table.get?_insert_self .., Nat.le_refl _, rfl,
    by simp, by simp, .nil, by simp [Visit.drained]⟩

namespace Holds

variable (h : Holds pick opened slot name entityId bus p d actions visits entry published read)
include h

theorem isOpen : ((Hold.ofPredicate p d).after visits).IsOpen := by
  have hstart : (Hold.ofPredicate p d).IsOpen := ⟨rfl, rfl⟩
  exact hstart.after h.waiting

theorem closed_eq_false : (opened.performAll pick actions).closed slot = false :=
  Session.closed_eq_false h.found h.named (Stream.owns_held ..)

theorem cursor_le : bus.log.length + read ≤ entry.bus.log.length := by
  have hlength := congrArg List.length h.leads.log
  rw [List.length_append] at hlength
  have := h.read_le
  omega

theorem drop_log : entry.bus.log.drop (bus.log.length + read) = published.drop read := by
  rw [h.leads.log, List.drop_length_add_append]

theorem length_log : entry.bus.log.length = bus.log.length + published.length := by
  rw [h.leads.log, List.length_append]

theorem perform_other {action : Action} (hne : action.stream? ≠ some name) :
    ∃ later more, Holds pick opened slot name entityId bus p d (actions ++ [action]) visits later
      (published ++ more) read := by
  obtain ⟨later, hl, commands, hp⟩ := perform_grows pick _ action slot entry h.found
  obtain ⟨more, hm⟩ := h.leads.performAll commands
  have hlength : published.length ≤ (published ++ more).length := by simp
  refine ⟨later, more, ?_, ?_, hp ▸ hm, ?_, Nat.le_trans h.read_le hlength, ?_, h.waiting, ?_, h.ordered, ?_⟩
  · rw [performAll_concat, hl]
  · rw [← h.capacity, ← hp]
    exact Bus.Precedes.capacity ⟨commands, rfl⟩
  · rw [performAll_concat, get?_streams_perform pick _ hne, h.named]
  · rw [h.drained, List.take_append_of_le_length h.read_le]
  · intro visit hv
    rw [performAll_concat]
    exact Nat.le_trans (h.past visit hv) (clock_le_perform pick _ action)
  · intro place time change hf
    obtain ⟨earlier, passed, he, hle, hlt, hc, hr⟩ := h.taken place time change hf
    refine ⟨earlier, passed, he.trans (List.prefix_append _ _), Nat.le_trans hle hlength, ?_, hc, hr⟩
    rwa [List.take_append_of_le_length hle]

theorem perform_poll_zero : (opened.performAll pick actions).perform pick (.poll name (some 0)) =
      (.polled [] .full, opened.performAll pick (actions ++ [.poll name (some 0)])) ∧
    Holds pick opened slot name entityId bus p d (actions ++ [.poll name (some 0)]) visits entry
      published read := by
  have hperform := perform_poll pick (some 0) h.named
  rw [Stream.poll_zero] at hperform
  rw [performAll_concat, hperform]
  refine ⟨rfl, ?_, h.capacity, h.leads, ?_, h.read_le, h.drained, h.waiting, ?_, h.ordered, ?_⟩
  · rw [performAll_concat, hperform]
    exact h.found
  · rw [performAll_concat, hperform]
    exact Table.get?_insert_self ..
  · rw [performAll_concat, hperform]
    exact h.past
  · intro place time change hf
    obtain ⟨earlier, passed, he, hrest⟩ := h.taken place time change hf
    exact ⟨earlier, passed, he.trans (List.prefix_append _ _), hrest⟩

end Holds

def unreadVisit (session : Session) (entityId : String) (unread : List StateChange) : Visit :=
  ⟨session.clock, ownChanges entityId unread, .waiting⟩

namespace Holds

variable (h : Holds pick opened slot name entityId bus p d actions visits entry published read)
include h

theorem perform_poll (hlimit : limit ≠ some 0) (hl : entry.bus.lost (bus.log.length + read) = 0) :
    let visit := (opened.performAll pick actions).unreadVisit entityId (published.drop read)
    (∃ status, (opened.performAll pick actions).perform pick (.poll name limit) =
      (.polled (((Hold.ofPredicate p d).after visits).visit visit).1.items status,
        opened.performAll pick (actions ++ [.poll name limit]))) ∧
    Holds pick opened slot name entityId bus p d (actions ++ [.poll name limit]) (visits ++ [visit])
      entry published published.length := by
  intro visit
  obtain ⟨status, hp⟩ := Stream.poll_held entityId h.isOpen (buses_instant pick h.found)
    h.closed_eq_false h.cursor_le hl hlimit
  have hperform := Session.perform_poll pick limit h.named
  rw [hp, h.drop_log, h.length_log] at hperform
  have hsession := performAll_concat pick opened actions (.poll name limit)
  have hdrained : Visit.drained (visits ++ [visit]) =
      Visit.drained visits ++ visit.batch.map (visit.now, ·) := by
    rw [Visit.drained_append_of_waiting h.waiting, Visit.drained_singleton]
  have hown : (Visit.drained (visits ++ [visit])).map Prod.snd = ownChanges entityId published := by
    rw [hdrained, List.map_append, h.drained, List.map_map]
    have hbatch : visit.batch = ownChanges entityId (published.drop read) := rfl
    simp [hbatch, ownChanges, Function.comp_def, ← List.filter_append]
  have hpast : ∀ other ∈ visits ++ [visit], other.now ≤ (opened.performAll pick actions).clock :=
    List.forall_mem_append.2 ⟨h.past, List.forall_mem_singleton.2 (Nat.le_refl _)⟩
  have hnamed : (opened.performAll pick (actions ++ [.poll name limit])).streams.get? name =
      some (.hold ((Hold.ofPredicate p d).after (visits ++ [visit]))
        (.ofEntity slot (bus.log.length + published.length) entityId)) := by
    rw [hsession, hperform, Hold.after_append]
    exact Table.get?_insert_self ..
  refine ⟨⟨status, by rw [hsession, hperform]; rfl⟩, ?_, h.capacity, h.leads, hnamed, Nat.le_refl _, ?_, ?_, ?_, ?_, ?_⟩
  · rw [hsession, hperform]
    exact h.found
  · rw [hown, List.take_length]
  · exact List.forall_mem_append.2 ⟨h.waiting, List.forall_mem_singleton.2 rfl⟩
  · rw [hsession, hperform]
    exact hpast
  · refine List.pairwise_append.2 ⟨h.ordered, List.pairwise_singleton _ _, fun other ho last hlast => ?_⟩
    rw [List.mem_singleton.1 hlast]
    exact h.past other ho
  · intro place time change hf
    by_cases hlt : place < (Visit.drained visits).length
    · rw [hdrained, List.getElem?_append_left hlt] at hf
      obtain ⟨earlier, passed, he, hrest⟩ := h.taken place time change hf
      exact ⟨earlier, passed, he.trans (List.prefix_append _ _), hrest⟩
    · -- what the last visit took in is passed now
      have hplace := (List.getElem?_eq_some_iff.1 hf).1
      rw [hdrained, List.getElem?_append_right (Nat.le_of_not_lt hlt), List.getElem?_map] at hf
      obtain ⟨_, -, heq⟩ := Option.map_eq_some_iff.1 hf
      have hclock : (opened.performAll pick (actions ++ [.poll name limit])).clock = time := by
        rw [hsession, hperform, ← (Prod.mk.inj heq).1]
        rfl
      refine ⟨_, published.length, List.prefix_rfl, Nat.le_refl _, ?_, hclock, _, hnamed⟩
      rw [List.take_length, ← hown, List.length_map]
      exact hplace

theorem perform_poll_lagged (hlimit : limit ≠ some 0)
    (hl : entry.bus.lost (bus.log.length + read) ≠ 0) :
    ∃ error status, ((opened.performAll pick actions).perform pick (.poll name limit)).1 =
        .polled [.error error] status ∧
      ((opened.performAll pick actions).perform pick (.poll name limit)).2.IsOver name := by
  obtain ⟨status, next, source, hf, hp⟩ := Stream.poll_held_lagged entityId h.isOpen
    (buses_instant pick h.found) h.closed_eq_false hl hlimit
  rw [Session.perform_poll pick limit h.named, hp]
  exact ⟨_, status, rfl, next, source, Table.get?_insert_self .., hf⟩

end Holds

theorem IsOver.perform {session : Session} (h : session.IsOver name) (pick : List Nat → Nat)
    {action : Action} (hk : action.Keeps name) :
    gave name action (session.perform pick action).1 = [] ∧
      (session.perform pick action).2.IsOver name := by
  obtain ⟨hold, source, hn, hf⟩ := h
  rcases hk.cases with hne | ⟨limit, rfl⟩
  · exact ⟨gave_eq_nil hne _, hold, source, (get?_streams_perform pick session hne).trans hn, hf⟩
  · rw [Session.perform_poll pick limit hn]
    by_cases hlimit : limit = some 0
    · rw [hlimit, Stream.poll_zero]
      exact ⟨gave_poll .., hold, source, Table.get?_insert_self .., hf⟩
    · rw [Stream.poll_held_finished _ hf source hlimit]
      exact ⟨gave_poll .., hold, source, Table.get?_insert_self .., hf⟩

theorem IsOver.performAll {session : Session} (h : session.IsOver name) (pick : List Nat → Nat)
    {actions : List Action} (hk : ∀ action ∈ actions, action.Keeps name) :
    (session.performAll pick actions).IsOver name :=
  performSteps_induction (motive := fun session _ => session.IsOver name)
    (fun _ _ step ha h => (h.perform step.pick ha).2) [] h (List.forall_mem_map.2 hk)

def GoesOn (pick : List Nat → Nat) (opened : Session) (slot : Nat) (name entityId : String)
    (bus : Bus) (p : Option EntityState → Bool) (d : Nat) (actions : List Action)
    (visits : List Visit) : Prop :=
  ∃ more entry published read, Holds pick opened slot name entityId bus p d actions (visits ++ more)
    entry published read

theorem Holds.goesOn
    (h : Holds pick opened slot name entityId bus p d actions visits entry published read) :
    GoesOn pick opened slot name entityId bus p d actions visits :=
  ⟨[], entry, published, read, by rwa [List.append_nil]⟩

theorem Holds.perform
    (h : Holds pick opened slot name entityId bus p d actions visits entry published read)
    {action : Action} (hk : action.Keeps name) :
    GoesOn pick opened slot name entityId bus p d (actions ++ [action]) visits ∨
      (opened.performAll pick (actions ++ [action])).IsOver name := by
  rcases hk.cases with hne | ⟨limit, rfl⟩
  · obtain ⟨later, more, hn⟩ := h.perform_other hne
    exact .inl hn.goesOn
  · by_cases hlimit : limit = some 0
    · subst hlimit
      exact .inl h.perform_poll_zero.2.goesOn
    · by_cases hl : entry.bus.lost (bus.log.length + read) = 0
      · exact .inl ⟨_, _, _, _, (h.perform_poll hlimit hl).2⟩
      · obtain ⟨_, _, -, hover⟩ := h.perform_poll_lagged hlimit hl
        rw [performAll_concat]
        exact .inr hover

/-- Through whatever is done besides, a held stream is only visited, or it is over. -/
theorem Holds.performAll
    (h : Holds pick opened slot name entityId bus p d actions visits entry published read)
    {rest : List Action} (hk : ∀ action ∈ rest, action.Keeps name) :
    GoesOn pick opened slot name entityId bus p d (actions ++ rest) visits ∨
      (opened.performAll pick (actions ++ rest)).IsOver name := by
  induction rest generalizing actions visits entry published read with
  | nil =>
    rw [List.append_nil]
    exact .inl h.goesOn
  | cons action rest ih =>
    obtain ⟨ha, hr⟩ := List.forall_mem_cons.1 hk
    rw [List.append_cons]
    rcases h.perform ha with ⟨paid, _, _, _, hn⟩ | hover
    · refine (ih hn hr).imp_left fun ⟨more, later, published', read', hm⟩ => ?_
      exact ⟨paid ++ more, later, published', read', by rwa [← List.append_assoc]⟩
    · rw [performAll_append]
      exact .inr (hover.performAll pick hr)

end

end Session

end HomeHub
