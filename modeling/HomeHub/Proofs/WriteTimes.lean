import HomeHub.Proofs.Feed

/-!
# Times of writes

What a bus tells of the times of an entity whose writers leave the times to the bus: it was updated at
its last write, and its text changed at its last turn, which is the last write that found the entity
absent or with another text.
-/

namespace HomeHub

/-- A state that leaves its times to the bus. -/
structure EntityState.IsUntimed (state : EntityState) : Prop where
  changed : state.lastChanged = none
  updated : state.lastUpdated = none

namespace Bus

/-- A write that finds the entity absent or with another text. To have no text differs from every
text. -/
def Turns (bus : Bus) (written : EntityState) : Prop :=
  ∀ old, bus.currentState written.entityId = some old → old.state ≠ written.state

def LastWrittenAt (commands : List Command) (entityId : String) (now : Timestamp) : Prop :=
  ∃ before written after, commands = before ++ .set now written :: after ∧
    written.entityId = entityId ∧ ∀ command ∈ after, command.written? ≠ some entityId

/-- The reading of the clock at the last turn of an entity, which has not been absent since. -/
def LastTurnedAt (bus : Bus) (commands : List Command) (entityId : String) (now : Timestamp) : Prop :=
  ∃ before written after, commands = before ++ .set now written :: after ∧
    written.entityId = entityId ∧ (bus.performAll before).Turns written ∧
    (∀ front, front <+: after →
      ((bus.performAll (before ++ .set now written :: front)).currentState entityId).isSome = true) ∧
    ∀ front time later back, after = front ++ .set time later :: back → later.entityId = entityId →
      ¬ (bus.performAll (before ++ .set now written :: front)).Turns later

def Command.reading? : Command → Option Timestamp
  | .set now _ => some now
  | .remove _ => none
  | .area .. => none
  | .call _ => none

section
variable {bus : Bus} {commands : List Command} {command : Command} {entityId : String}
  {now : Timestamp} {state written : EntityState}

theorem performAll_concat (bus : Bus) (commands : List Command) (command : Command) :
    bus.performAll (commands ++ [command]) = (bus.performAll commands).perform command := by
  simp [performAll]

theorem currentState_apply (bus : Bus) (change : StateChange) :
    (bus.apply change).currentState change.entityId = change.new :=
  (get?_store ..).trans (if_pos rfl)

theorem currentState_set (bus : Bus) (now : Timestamp) (written : EntityState) :
    (bus.perform (.set now written)).currentState written.entityId =
      some (stamp now (bus.currentState written.entityId) written) :=
  bus.currentState_apply (bus.writing now written)

theorem currentState_remove (bus : Bus) (entityId : String) :
    (bus.perform (.remove entityId)).currentState entityId = none := by
  cases h : bus.currentState entityId with
  | none => simp [perform, removeState, h]
  | some old =>
    simp only [perform, removeState, h]
    exact bus.currentState_apply ⟨entityId, some old, none⟩

-- ---------------------------------------------------------------------------
-- One write
-- ---------------------------------------------------------------------------

theorem lastUpdated_stamp (h : written.IsUntimed) (now : Timestamp) (old : Option EntityState) :
    (stamp now old written).lastUpdated = some now := by
  simp [stamp, h.updated]

theorem lastChanged_stamp_of_turns (h : written.IsUntimed) (ht : bus.Turns written) (now : Timestamp) :
    (stamp now (bus.currentState written.entityId) written).lastChanged = some now := by
  cases hc : bus.currentState written.entityId with
  | none => simp [stamp, h.changed]
  | some old => simp [stamp, h.changed, ht old hc]

theorem lastChanged_stamp_of_not_turns (h : written.IsUntimed) (ht : ¬ bus.Turns written) :
    ∃ old, bus.currentState written.entityId = some old ∧
      ∀ time, old.lastChanged = some time → ∀ now,
        (stamp now (some old) written).lastChanged = some time := by
  simp only [Turns, not_forall, not_not] at ht
  obtain ⟨old, hc, hs⟩ := ht
  exact ⟨old, hc, fun time ho now => by simp [stamp, h.changed, hs, ho]⟩

/-- A write is a turn if it finds nothing or if the change it publishes is one of the text. -/
theorem turns_iff (bus : Bus) (now : Timestamp) (written : EntityState) :
    bus.Turns written ↔ (bus.writing now written).old = none ∨
      (bus.writing now written).isTransition = true := by
  have hnew : (bus.writing now written).newText = written.state := rfl
  have hold : (bus.writing now written).old = bus.currentState written.entityId := rfl
  rw [Turns, StateChange.isTransition, StateChange.oldText, hnew, hold]
  cases bus.currentState written.entityId <;> simp

-- ---------------------------------------------------------------------------
-- Whole runs
-- ---------------------------------------------------------------------------

theorem LastWrittenAt.concat (h : LastWrittenAt commands entityId now)
    (hw : command.written? ≠ some entityId) : LastWrittenAt (commands ++ [command]) entityId now := by
  obtain ⟨before, written, after, rfl, hid, hafter⟩ := h
  refine ⟨before, written, after ++ [command], by simp, hid, ?_⟩
  exact List.forall_mem_append.2 ⟨hafter, List.forall_mem_singleton.2 hw⟩

theorem lastWrittenAt_set (commands : List Command) (now : Timestamp) (written : EntityState) :
    LastWrittenAt (commands ++ [.set now written]) written.entityId now :=
  ⟨commands, written, [], rfl, rfl, by simp⟩

/-- What leaves the entity present and is no turn of it leaves its last turn where it was. -/
theorem LastTurnedAt.concat (h : bus.LastTurnedAt commands entityId now)
    (hpresent : ((bus.performAll (commands ++ [command])).currentState entityId).isSome = true)
    (hturn : ∀ time written, command = .set time written → written.entityId = entityId →
      ¬ (bus.performAll commands).Turns written) :
    bus.LastTurnedAt (commands ++ [command]) entityId now := by
  obtain ⟨before, written, after, rfl, hid, ht, hcached, hlast⟩ := h
  refine ⟨before, written, after ++ [command], by simp, hid, ht, fun front hfront => ?_,
    fun front time later back heq hl => ?_⟩
  · rcases List.prefix_concat_iff.1 hfront with rfl | hfront
    · simpa using hpresent
    · exact hcached front hfront
  · rcases concat_eq_append_cons.1 heq with ⟨rfl, rfl, -⟩ | ⟨rest, rfl, hrest⟩
    · exact hturn time later rfl hl
    · exact hlast front time later rest hrest hl

theorem lastTurnedAt_set (ht : (bus.performAll commands).Turns written) (now : Timestamp) :
    bus.LastTurnedAt (commands ++ [.set now written]) written.entityId now := by
  refine ⟨commands, written, [], rfl, rfl, ht, fun front hfront => ?_, by simp⟩
  rw [List.prefix_nil.1 hfront, performAll_concat, currentState_set]
  rfl

structure IsDated (bus : Bus) (commands : List Command) (entityId : String) (state : EntityState)
    (updated changed : Timestamp) : Prop where
  lastUpdated : state.lastUpdated = some updated
  written : LastWrittenAt commands entityId updated
  lastChanged : state.lastChanged = some changed
  turned : bus.LastTurnedAt commands entityId changed

/-- A write dates the entity anew, if it is a turn, or else keeps the time of the last turn. -/
theorem exists_isDated_set (hw : written.IsUntimed) (now : Timestamp)
    (h : ∀ old, (bus.performAll commands).currentState written.entityId = some old →
      ∃ updated changed, bus.IsDated commands written.entityId old updated changed) :
    ∃ changed, bus.IsDated (commands ++ [.set now written]) written.entityId
      (stamp now ((bus.performAll commands).currentState written.entityId) written) now changed := by
  have hlast := lastWrittenAt_set commands now written
  by_cases ht : (bus.performAll commands).Turns written
  · exact ⟨now, lastUpdated_stamp hw now _, hlast, lastChanged_stamp_of_turns hw ht now,
      lastTurnedAt_set ht now⟩
  · obtain ⟨old, hc, hkept⟩ := lastChanged_stamp_of_not_turns hw ht
    obtain ⟨_, changed, hold⟩ := h old hc
    refine ⟨changed, lastUpdated_stamp hw now _, hlast, hc ▸ hkept changed hold.lastChanged now, ?_⟩
    refine hold.turned.concat ?_ fun time other heq _ => ?_
    · rw [performAll_concat, currentState_set]
      rfl
    · obtain ⟨rfl, rfl⟩ := Command.set.inj heq
      exact ht

theorem exists_isDated (absent : bus.currentState entityId = none)
    (untimed : ∀ now written, .set now written ∈ commands → written.entityId = entityId →
      written.IsUntimed) :
    ∀ state, (bus.performAll commands).currentState entityId = some state →
      ∃ updated changed, bus.IsDated commands entityId state updated changed := by
  induction commands using List.reverseRecOn with
  | nil =>
    intro state hs
    exact absurd (absent.symm.trans hs) (by simp)
  | append_singleton earlier command ih =>
    intro state hs
    have hearlier := ih fun now written hm => untimed now written (List.mem_append_left _ hm)
    rw [performAll_concat] at hs
    by_cases hw : command.written? = some entityId
    · cases command with
      | set now written =>
        obtain rfl : written.entityId = entityId := by simpa [Command.written?] using hw
        obtain rfl := Option.some.inj ((currentState_set _ now written).symm.trans hs)
        exact ⟨now, exists_isDated_set (untimed now written (by simp) rfl) now hearlier⟩
      | remove other =>
        obtain rfl : other = entityId := by simpa [Command.written?] using hw
        exact absurd ((currentState_remove _ other).symm.trans hs) (by simp)
      | area => simp [Command.written?] at hw
      | call => simp [Command.written?] at hw
    · have hcached : ((bus.performAll earlier).perform command).currentState entityId =
          (bus.performAll earlier).currentState entityId := currentState_perform hw
      obtain ⟨updated, changed, hd⟩ := hearlier state (hcached.symm.trans hs)
      refine ⟨updated, changed, hd.lastUpdated, hd.written.concat hw, hd.lastChanged,
        hd.turned.concat ?_ fun time written heq hid => ?_⟩
      · rw [performAll_concat, hs]
        rfl
      · rw [heq, Command.written?, hid] at hw
        exact absurd rfl hw

theorem IsDated.le {updated changed : Timestamp} (h : bus.IsDated commands entityId state updated changed)
    (hclock : (commands.filterMap Command.reading?).Pairwise (· ≤ ·)) : changed ≤ updated := by
  obtain ⟨before, written, after, rfl, -, hafter⟩ := h.written
  obtain ⟨front, turned, back, heq, hid, -⟩ := h.turned
  have hm : .set changed turned ∈ before ++ .set updated written :: after := by
    rw [heq]
    exact List.mem_append_right _ List.mem_cons_self
  simp only [List.filterMap_append, List.filterMap_cons, Command.reading?, List.pairwise_append,
    List.mem_filterMap] at hclock
  rcases List.mem_append.1 hm with hm | hm
  · exact hclock.2.2 changed ⟨_, hm, rfl⟩ updated List.mem_cons_self
  · rcases List.mem_cons.1 hm with heq | hm
    · exact Int.le_of_eq (Command.set.inj heq).1
    · exact absurd (congrArg some hid) (hafter _ hm)

end

/-- What is cached of an entity that was absent, whose writers leave the times to the bus. It was updated
at its last write, and changed at the last write since it was absent that turned it; the latter time is
not later if the clock never goes back. Each write publishes a change that keeps the time of the last turn
exactly if the entity was cached and the text stays the same. -/
theorem times_follow_writes {bus : Bus} {entityId : String} {commands : List Command}
    (absent : bus.currentState entityId = none)
    (untimed : ∀ now written, .set now written ∈ commands → written.entityId = entityId →
      written.IsUntimed) :
    (∀ state, (bus.performAll commands).currentState entityId = some state →
      ∃ updated changed,
        state.lastUpdated = some updated ∧ LastWrittenAt commands entityId updated ∧
        state.lastChanged = some changed ∧ bus.LastTurnedAt commands entityId changed ∧
        ((commands.filterMap Command.reading?).Pairwise (· ≤ ·) → changed ≤ updated)) ∧
    ∀ before now written after, commands = before ++ .set now written :: after →
      written.entityId = entityId →
      let found := bus.performAll before
      ∃ change, (found.perform (.set now written)).log = found.log ++ [change] ∧
        change.old = found.currentState entityId ∧
        change.new = (found.perform (.set now written)).currentState entityId ∧
        (found.Turns written ↔ change.old = none ∨ change.isTransition = true) ∧
        change.new.bind EntityState.lastChanged =
          if change.old.isSome && !change.isTransition then change.old.bind EntityState.lastChanged
          else some now := by
  refine ⟨fun state hs => ?_, ?_⟩
  · obtain ⟨updated, changed, hd⟩ := exists_isDated absent untimed state hs
    exact ⟨updated, changed, hd.lastUpdated, hd.written, hd.lastChanged, hd.turned, hd.le⟩
  · rintro before now written after rfl rfl found
    have hw := untimed now written (by simp) rfl
    have hcached := currentState_set found now written
    have hturns := found.turns_iff now written
    refine ⟨found.writing now written, rfl, rfl, hcached.symm, hturns, ?_⟩
    by_cases ht : found.Turns written
    · have hno : ((found.writing now written).old.isSome &&
          !(found.writing now written).isTransition) = false := by
        rcases hturns.1 ht with hn | htransition <;> simp [*]
      rw [hno, if_neg Bool.false_ne_true]
      exact lastChanged_stamp_of_turns hw ht now
    · obtain ⟨old, hc, hkept⟩ := lastChanged_stamp_of_not_turns hw ht
      obtain ⟨_, changed, hd⟩ := exists_isDated absent
        (fun time other hm => untimed time other (List.mem_append_left _ hm)) old hc
      have hyes : ((found.writing now written).old.isSome &&
          !(found.writing now written).isTransition) = true := by
        rw [hturns, not_or] at ht
        simp [Option.isSome_iff_ne_none, ht]
      have hold : (found.writing now written).old = some old := hc
      have hnew : (found.writing now written).new = some (stamp now (some old) written) :=
        congrArg (fun old => some (stamp now old written)) hc
      rw [hyes, if_pos rfl, hold, hnew, Option.bind_some, Option.bind_some, hd.lastChanged]
      exact hkept changed hd.lastChanged now

def lampCommands : List Command :=
  [.set 1 (lamp "on"), .remove "light.a", .set 3 (lamp "on"), .set 5 (lamp "on")]

theorem times_follow_writes_lamp :
    (Bus.mk (.ofNat 1) 1 [] [] [] []).currentState "light.a" = none ∧
      (∀ now written, .set now written ∈ lampCommands → written.entityId = "light.a" →
        written.IsUntimed) ∧
      LastWrittenAt lampCommands "light.a" 5 ∧
      (Bus.mk (.ofNat 1) 1 [] [] [] []).LastTurnedAt lampCommands "light.a" 3 := by
  have absent : (Bus.mk (.ofNat 1) 1 [] [] [] []).currentState "light.a" = none := rfl
  have untimed : ∀ now written, .set now written ∈ lampCommands → written.entityId = "light.a" →
      written.IsUntimed := by
    intro now written hm _
    have hlamp : written = lamp "on" := by
      simp only [lampCommands, List.mem_cons, List.not_mem_nil, Command.set.injEq] at hm
      grind
    exact hlamp ▸ ⟨rfl, rfl⟩
  obtain ⟨updated, changed, hupdated, hwritten, hchanged, hturned, -⟩ :=
    (times_follow_writes absent untimed).1
      (stamp 5 (some (stamp 3 none (lamp "on"))) (lamp "on")) rfl
  obtain rfl : 5 = updated := Option.some.inj hupdated
  obtain rfl : 3 = changed := Option.some.inj hchanged
  exact ⟨absent, untimed, hwritten, hturned⟩

end Bus

end HomeHub
