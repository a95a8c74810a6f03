import HomeHub.Bus
import HomeHub.Proofs.Lists
import Mathlib.Data.List.Induction

/-!
# The log of a bus and its cache

Whatever writers do to a bus, in any order, what it publishes from some point on leads from the cache
of that point to the cache of now.
-/

namespace HomeHub

theorem Table.mem_erase {table : Table α} {key : String} {entry : String × α}
    (h : entry ∈ table.erase key) : entry ∈ table :=
  (List.mem_filter.1 h).1

structure EntityState.IsStamped (state : EntityState) : Prop where
  changed : state.lastChanged.isSome = true
  updated : state.lastUpdated.isSome = true

def StateChange.left (found : Option EntityState) (changes : List StateChange) (entityId : String) :
    Option EntityState :=
  match changes.reverse.find? (·.entityId == entityId) with
  | some change => change.new
  | none => found

namespace StateChange

theorem left_concat (found : Option EntityState) (changes : List StateChange) (change : StateChange)
    (entityId : String) : left found (changes ++ [change]) entityId =
      if change.entityId = entityId then change.new else left found changes entityId := by
  unfold left
  by_cases h : change.entityId = entityId <;> simp [h]

end StateChange

namespace Bus

inductive Command where
  | set (now : Timestamp) (state : EntityState)
  | remove (entityId : String)
  | area (entityId : String) (area : Area)
  | call (call : ServiceCall)

def Command.written? : Command → Option String
  | .set _ state => some state.entityId
  | .remove entityId => some entityId
  | .area .. => none
  | .call _ => none

def perform (bus : Bus) : Command → Bus
  | .set now state => (bus.setState now state).2
  | .remove entityId => (bus.removeState entityId).2
  | .area entityId area => bus.setArea entityId area
  | .call call => bus.record call

def performAll (bus : Bus) (commands : List Command) : Bus := commands.foldl perform bus

section
variable {bus : Bus} {command : Command} {change : StateChange}

theorem stamp_isStamped (now : Timestamp) (old : Option EntityState) (state : EntityState) :
    (stamp now old state).IsStamped := ⟨rfl, rfl⟩

structure IsTrue (bus : Bus) (change : StateChange) : Prop where
  old : change.old = bus.currentState change.entityId
  new : ∀ state, change.new = some state → state.entityId = change.entityId ∧ state.IsStamped

theorem perform_cases (bus : Bus) (command : Command) :
    (∃ change, bus.perform command = bus.apply change ∧ command.written? = some change.entityId ∧
      bus.IsTrue change) ∨
    (bus.perform command).states = bus.states ∧ (bus.perform command).log = bus.log := by
  cases command with
  | set now state =>
    refine .inl ⟨bus.writing now state, rfl, rfl, rfl, fun new h => ?_⟩
    obtain rfl := Option.some.inj h
    exact ⟨rfl, stamp_isStamped _ _ _⟩
  | remove entityId =>
    cases hs : bus.currentState entityId with
    | none => exact .inr ⟨by simp [perform, removeState, hs], by simp [perform, removeState, hs]⟩
    | some old =>
      exact .inl ⟨⟨entityId, some old, none⟩, by simp [perform, removeState, hs], rfl, hs.symm, by simp⟩
  | area entityId area => exact .inr ⟨rfl, rfl⟩
  | call call => exact .inr ⟨rfl, rfl⟩

theorem get?_store (states : Table EntityState) (change : StateChange) (entityId : String) :
    (store states change).get? entityId =
      if change.entityId = entityId then change.new else states.get? entityId := by
  unfold store
  cases hn : change.new with
  | none => simp [Table.get?_erase]
  | some state => simp [Table.get?_insert]

theorem get?_foldl_store (states : Table EntityState) (changes : List StateChange)
    (entityId : String) : (changes.foldl store states).get? entityId =
      StateChange.left (states.get? entityId) changes entityId := by
  induction changes using List.reverseRecOn with
  | nil => rfl
  | append_singleton earlier change ih =>
    rw [List.foldl_append, List.foldl_cons, List.foldl_nil, get?_store, ih, StateChange.left_concat]

-- ---------------------------------------------------------------------------
-- What is published
-- ---------------------------------------------------------------------------

/-- A bus and a later state of it, with what was published between them. -/
structure Leads (bus : Bus) (published : List StateChange) (last : Bus) : Prop where
  log : last.log = bus.log ++ published
  chain : ∀ place change, published[place]? = some change → change.old =
    StateChange.left (bus.currentState change.entityId) (published.take place) change.entityId
  states : published.foldl store bus.states = last.states

theorem Leads.refl (bus : Bus) : bus.Leads [] bus := ⟨by simp, by simp, rfl⟩

theorem Leads.perform {published : List StateChange} {last : Bus} (h : bus.Leads published last)
    (command : Command) : ∃ more, bus.Leads (published ++ more) (last.perform command) := by
  rcases last.perform_cases command with ⟨change, heq, -, htrue⟩ | ⟨hs, hl⟩
  · refine ⟨[change], by simp [heq, apply, publish, h.log], fun place found hf => ?_, ?_⟩
    · -- the old side of the new change is what is cached, and so what the published ones left
      rcases getElem?_concat_eq_some.1 hf with hf | ⟨rfl, rfl⟩
      · have hlt := (List.getElem?_eq_some_iff.1 hf).1
        rw [List.take_append_of_le_length (Nat.le_of_lt hlt)]
        exact h.chain place found hf
      · have hcurrent := get?_foldl_store bus.states published change.entityId
        rw [List.take_left', htrue.old, currentState, ← h.states, hcurrent]
        · rfl
        · rfl
    · rw [List.foldl_append, h.states, heq]
      rfl
  · exact ⟨[], by simpa [hl] using h.log, by simpa using h.chain, by simpa [hs] using h.states⟩

theorem Leads.performAll {published : List StateChange} {last : Bus} (h : bus.Leads published last)
    (commands : List Command) : ∃ more, bus.Leads (published ++ more) (last.performAll commands) := by
  induction commands generalizing published last with
  | nil => exact ⟨[], by simpa [Bus.performAll] using h⟩
  | cons command rest ih =>
    obtain ⟨first, hf⟩ := h.perform command
    obtain ⟨more, hm⟩ := ih hf
    exact ⟨first ++ more, by simpa [Bus.performAll] using hm⟩

theorem leads_performAll (bus : Bus) (commands : List Command) :
    ∃ published, bus.Leads published (bus.performAll commands) :=
  (Leads.refl bus).performAll commands

theorem Leads.currentState {published : List StateChange} {last : Bus}
    (h : bus.Leads published last) (entityId : String) :
    last.currentState entityId = StateChange.left (bus.currentState entityId) published entityId := by
  rw [Bus.currentState, ← h.states, get?_foldl_store]
  rfl

/-- The old side of a change is what its predecessors left. -/
theorem Leads.old_eq {front back : List StateChange} {last : Bus}
    (h : bus.Leads (front ++ change :: back) last) :
    change.old = StateChange.left (bus.currentState change.entityId) front change.entityId := by
  have hold := h.chain front.length change (by simp)
  rwa [List.take_left] at hold

-- ---------------------------------------------------------------------------
-- What is cached
-- ---------------------------------------------------------------------------

def Filed (bus : Bus) : Prop :=
  ∀ entry ∈ bus.states, entry.2.entityId = entry.1 ∧ entry.2.IsStamped

theorem Filed.perform (h : bus.Filed) (command : Command) : (bus.perform command).Filed := by
  rcases bus.perform_cases command with ⟨change, heq, -, htrue⟩ | ⟨hs, -⟩
  · intro entry hm
    have hm : entry ∈ store bus.states change := by simpa [heq, apply, publish] using hm
    unfold store at hm
    cases hn : change.new with
    | none =>
      rw [hn] at hm
      exact h entry (Table.mem_erase hm)
    | some state =>
      rw [hn] at hm
      rcases Table.mem_insert hm with rfl | hm
      · exact htrue.new state hn
      · exact h entry hm
  · intro entry hm
    exact h entry (hs ▸ hm)

theorem Filed.performAll (h : bus.Filed) (commands : List Command) :
    (bus.performAll commands).Filed := by
  induction commands generalizing bus with
  | nil => exact h
  | cons command rest ih => exact ih (h.perform command)

theorem currentState_perform {entityId : String} (h : command.written? ≠ some entityId) :
    (bus.perform command).currentState entityId = bus.currentState entityId := by
  rcases bus.perform_cases command with ⟨change, heq, hw, -⟩ | ⟨hs, -⟩
  · have hne : change.entityId ≠ entityId := fun heq => h (hw.trans (congrArg some heq))
    rw [heq]
    exact (get?_store bus.states change entityId).trans (if_neg hne)
  · rw [currentState, hs, currentState]

theorem areas_calls_perform {entityId : String} (h : command.written? = some entityId) :
    (bus.perform command).areas = bus.areas ∧ (bus.perform command).calls = bus.calls := by
  cases command with
  | set now state => exact ⟨rfl, rfl⟩
  | remove entityId =>
    cases hs : bus.currentState entityId <;> simp [perform, removeState, hs, apply, publish]
  | area => simp [Command.written?] at h
  | call => simp [Command.written?] at h

end

/-- From any point of a run on, what is published chains and leads to the cache of now. Removing what
is not known publishes nothing, all that is cached is filed and has its times, and a write touches
neither other entities nor areas nor calls. -/
theorem feed_leads {id : BusId} {capacity : Nat} {bus : Bus} (h : empty id capacity = .ok bus)
    (before after : List Command) :
    let middle := bus.performAll before
    let last := middle.performAll after
    middle.Leads (last.log.drop middle.log.length) last ∧
    (∀ entityId, last.currentState entityId = none → last.removeState entityId = (none, last)) ∧
    last.Filed ∧
    ∀ command entityId, command.written? = some entityId →
      (∀ other, other ≠ entityId →
        (last.perform command).currentState other = last.currentState other) ∧
      (last.perform command).areas = last.areas ∧ (last.perform command).calls = last.calls := by
  intro middle last
  have hfiled : bus.Filed := by
    unfold empty at h
    split at h
    · simp at h
    · cases h
      simp [Filed]
  refine ⟨?_, fun entityId hn => ?_, (hfiled.performAll before).performAll after, ?_⟩
  · obtain ⟨published, hl⟩ := leads_performAll middle after
    have hlog : last.log.drop middle.log.length = published := by
      rw [hl.log, List.drop_left]
    rw [hlog]
    exact hl
  · simp [removeState, hn]
  · intro command entityId hw
    refine ⟨fun other hne => currentState_perform ?_, areas_calls_perform hw⟩
    rw [hw]
    exact fun heq => hne (Option.some.inj heq).symm

def lamp (text : String) : EntityState := ⟨"light.a", some text, .null, none, none, none⟩

theorem feed_leads_lamp :
    empty (.ofNat 1) 1 = .ok ⟨.ofNat 1, 1, [], [], [], []⟩ ∧
      (performAll ⟨.ofNat 1, 1, [], [], [], []⟩ [.set 0 (lamp "on")]).Leads
        [⟨"light.a", some (stamp 0 none (lamp "on")), some (stamp 5 none (lamp "off"))⟩,
          ⟨"light.a", some (stamp 5 none (lamp "off")), none⟩]
        (performAll ⟨.ofNat 1, 1, [], [], [], []⟩
          [.set 0 (lamp "on"), .set 5 (lamp "off"), .remove "light.a"]) := by
  have opened : empty (.ofNat 1) 1 = .ok ⟨.ofNat 1, 1, [], [], [], []⟩ := rfl
  have leads := feed_leads opened [.set 0 (lamp "on")] [.set 5 (lamp "off"), .remove "light.a"]
  exact ⟨opened, leads.1⟩

end Bus

end HomeHub
