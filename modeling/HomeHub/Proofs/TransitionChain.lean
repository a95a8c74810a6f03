import HomeHub.Proofs.FilteredRuns
import HomeHub.Proofs.FinalErrors

/-!
# Chains of transitions

The stream of the transitions of an entity leads from the state text that was cached when it was opened
to the one that is cached now: each transition starts where the one before it ended. Only a stream that
has lagged stops short of that, and says so.
-/

namespace HomeHub

-- ---------------------------------------------------------------------------
-- Chains
-- ---------------------------------------------------------------------------

/-- Changes that lead from one state text to another. Each of them is a transition, and the next one
starts where it ended. -/
inductive Unbroken : Option String → List StateChange → Option String → Prop where
  | nil (text : Option String) : Unbroken text [] text
  | cons {change : StateChange} {rest : List StateChange} {last : Option String}
      (ht : change.oldText ≠ change.newText) (h : Unbroken change.newText rest last) :
      Unbroken change.oldText (change :: rest) last

theorem Unbroken.concat {first : Option String} {changes : List StateChange} {change : StateChange}
    (h : Unbroken first changes change.oldText) (ht : change.oldText ≠ change.newText) :
    Unbroken first (changes ++ [change]) change.newText := by
  generalize hlast : change.oldText = last at h
  induction h with
  | nil text =>
    subst hlast
    exact .cons ht (.nil _)
  | cons hfirst _ ih => exact .cons hfirst (ih hlast)

def Bus.currentText (bus : Bus) (entityId : String) : Option String :=
  (bus.currentState entityId).bind EntityState.state

def ownTransitions (entityId : String) (changes : List StateChange) : List StateChange :=
  (changes.filter (·.entityId == entityId)).filter StateChange.isTransition

theorem ownTransitions_concat (entityId : String) (changes : List StateChange) (change : StateChange) :
    ownTransitions entityId (changes ++ [change]) =
      ownTransitions entityId changes ++
        if change.entityId = entityId ∧ change.oldText ≠ change.newText then [change] else [] := by
  by_cases hown : change.entityId = entityId <;>
    by_cases ht : change.oldText = change.newText <;>
      simp [ownTransitions, StateChange.isTransition, hown, ht]

theorem Bus.Leads.unbroken {bus last : Bus} {front back : List StateChange}
    (h : bus.Leads (front ++ back) last) (entityId : String) :
    Unbroken (bus.currentText entityId) (ownTransitions entityId front)
      ((StateChange.left (bus.currentState entityId) front entityId).bind EntityState.state) := by
  induction front using List.reverseRecOn generalizing back with
  | nil => exact .nil _
  | append_singleton earlier change ih =>
    rw [List.append_assoc, List.singleton_append] at h
    have hearlier := ih h
    rw [ownTransitions_concat, StateChange.left_concat]
    by_cases hown : change.entityId = entityId
    · -- the change starts where the earlier ones ended
      have hold : change.oldText =
          (StateChange.left (bus.currentState entityId) earlier entityId).bind EntityState.state := by
        rw [StateChange.oldText, h.old_eq, hown]
      rw [← hold] at hearlier
      rw [if_pos hown]
      by_cases ht : change.oldText = change.newText
      · rw [if_neg fun hboth => hboth.2 ht, List.append_nil]
        rw [ht] at hearlier
        exact hearlier
      · rw [if_pos ⟨hown, ht⟩]
        exact hearlier.concat ht
    · rw [if_neg fun hboth => hown hboth.1, if_neg hown, List.append_nil]
      exact hearlier

theorem Bus.Leads.unbroken_last {bus last : Bus} {published : List StateChange}
    (h : bus.Leads published last) (entityId : String) :
    Unbroken (bus.currentText entityId) (ownTransitions entityId published)
      (last.currentText entityId) := by
  rw [Bus.currentText, Bus.currentText, h.currentState]
  rw [← List.append_nil published] at h
  exact h.unbroken entityId

theorem ownTransitions_append (entityId : String) (first second : List StateChange) :
    ownTransitions entityId (first ++ second) =
      ownTransitions entityId first ++ ownTransitions entityId second := by
  simp [ownTransitions]

theorem passing_ownItems (entityId : String) (changes : List StateChange) :
    passing StateChange.isTransition (ownItems entityId changes) =
      (ownTransitions entityId changes).map .ok :=
  passing_map_ok ..

-- ---------------------------------------------------------------------------
-- Polls
-- ---------------------------------------------------------------------------

theorem error_notMem_ownItems (error : HubError) (entityId : String) (changes : List StateChange) :
    .error error ∉ ownItems entityId changes := by
  simp [ownItems]

/-- What was given are changes up to some place, and perhaps the error that the stream has lagged. -/
theorem Reads.items_eq {slot start : Nat} {entityId : String} {published : List StateChange}
    {stream : Stream} {items : List Item} (h : Reads slot start entityId published stream items) :
    ∃ (front back : List StateChange) (errors : List HubError), published = front ++ back ∧
      items = ownItems entityId front ++ errors.map .error ∧
      (errors = [] ∨ ∃ skipped, 0 < skipped ∧ errors = [.bus (.lagged skipped)]) := by
  cases h with
  | @reading read hr =>
    exact ⟨_, _, [], (List.take_append_drop read published).symm, by simp, .inl rfl⟩
  | @lagged read skipped source hr hs =>
    have hsplit := (List.take_append_drop read published).symm
    exact ⟨_, _, [_], hsplit, rfl, .inr ⟨skipped, hs, rfl⟩⟩

/-- Who waits has read all that was published, and who is at the end has lagged. -/
theorem Reads.status {slot start : Nat} {entityId : String} {published : List StateChange}
    {stream : Stream} {items : List Item} (h : Reads slot start entityId published stream items)
    {instant : Instant} {bus : Bus} (hb : instant.buses[slot]? = some bus)
    (ho : stream.owns slot = true → instant.closed slot = false)
    {earlier : List StateChange} (hstart : earlier.length = start)
    (hlog : bus.log = earlier ++ published) (limit : Option Nat) :
    ((stream.poll instant limit).2.1 = .waiting →
      items ++ (stream.poll instant limit).1 = ownItems entityId published) ∧
    ((stream.poll instant limit).2.1 = .ended →
      ∃ skipped, .error (.bus (.lagged skipped)) ∈ items ++ (stream.poll instant limit).1) := by
  by_cases hlimit : limit = some 0
  · rw [hlimit, Stream.poll_zero]
    simp
  cases h with
  | @lagged read skipped source hr hs =>
    rw [Stream.poll_untilError_true instant source hlimit]
    exact ⟨by simp, fun _ => ⟨skipped, by simp⟩⟩
  | @reading read hr =>
    subst hstart
    have hopen := ho (Stream.owns_ofEntity ..)
    by_cases hl : bus.lost (earlier.length + read) = 0
    · obtain ⟨count, status, -, hp, hne, hw⟩ :=
        Stream.poll_ofEntity_published entityId hb hopen hlog hr hl limit
      rw [hp]
      refine ⟨fun hwaiting => ?_, fun he => (hne he).elim⟩
      rw [hw hwaiting, ← List.length_drop, List.take_length, ← ownItems_append, List.take_append_drop]
    · obtain ⟨status, next, hp, hne⟩ := Stream.poll_ofEntity_lagged entityId hb hopen hl hlimit
      rw [hp]
      exact ⟨fun hwaiting => (hne hwaiting).elim, fun _ => ⟨bus.lost (earlier.length + read), by simp⟩⟩

namespace Session

/-- The stream of the transitions of an entity and what its polls have replied, what its source gave
since its bus was as given, and what the bus published. -/
structure Follows (session : Session) (slot : Nat) (name entityId : String) (bus : Bus)
    (replies : List (List Item × PollStatus)) (items : List Item) (entry : BusSlot)
    (published : List StateChange) (source : Stream) : Prop where
  found : session.slots[slot]? = some entry
  leads : bus.Leads published entry.bus
  named : session.streams.get? name = some source.transitions
  reads : Reads slot bus.log.length entityId published source items
  given : replies.flatMap (·.1) = passing StateChange.isTransition items

section
variable {session : Session} {slot : Nat} {name entityId : String} {bus : Bus}
  {replies : List (List Item × PollStatus)} {items : List Item} {entry : BusSlot}
  {published : List StateChange} {source : Stream}

theorem follows_subscribe (pick : List Nat → Nat) (h : session.bus? slot = some bus)
    (name entityId : String) :
    ∃ entry, (session.perform pick (.subscribe name (.transitions (.entity slot entityId)))).2.Follows
      slot name entityId bus [] [] entry [] (.ofEntity slot bus.log.length entityId) := by
  rw [perform_subscribe_of_bus pick name h rfl, Plan.start, Plan.start, logLength_eq h]
  obtain ⟨entry, hs, -, rfl⟩ := bus?_eq_some h
  exact ⟨entry, hs, .refl _, Table.get?_insert_self .., .reading (Nat.zero_le _), rfl⟩

theorem Follows.poll (h : session.Follows slot name entityId bus replies items entry published source)
    (pick : List Nat → Nat) (limit : Option Nat) :
    ∃ added status next, (session.perform pick (.poll name limit)).1 =
        .polled (passing StateChange.isTransition added) status ∧
      (session.perform pick (.poll name limit)).2.Follows slot name entityId bus
        (replies ++ [(passing StateChange.isTransition added, status)]) (items ++ added) entry published
        next ∧
      (status = .waiting → items ++ added = ownItems entityId published) ∧
      (status = .ended → ∃ skipped, .error (.bus (.lagged skipped)) ∈ items ++ added) := by
  obtain ⟨asked, added, status, next, hsource, hp⟩ :=
    Stream.poll_filter StateChange.isTransition source (session.instant pick) limit
  have hb := buses_instant pick h.found
  have ho : source.owns slot = true → (session.instant pick).closed slot = false :=
    fun howns => closed_eq_false h.found h.named howns
  have hreads := h.reads.poll hb ho rfl h.leads.log asked
  have hstatus := h.reads.status hb ho rfl h.leads.log asked
  rw [hsource] at hreads hstatus
  rw [perform_poll pick limit h.named, Stream.transitions, hp]
  refine ⟨added, status, next, rfl, ?_, hstatus⟩
  refine ⟨h.found, h.leads, Table.get?_insert_self .., hreads, ?_⟩
  rw [List.flatMap_append, h.given, passing_append]
  simp

theorem Follows.perform
    (h : session.Follows slot name entityId bus replies items entry published source)
    (pick : List Nat → Nat) {action : Action} (hk : action.Keeps name) :
    ∃ items' entry' published' source', (session.perform pick action).2.Follows slot name entityId bus
      (replies ++ (reply? name action (session.perform pick action).1).toList) items' entry' published'
      source' := by
  rcases hk.cases with hne | ⟨limit, rfl⟩
  · obtain ⟨later, hl, commands, hlater⟩ := perform_grows pick session action slot entry h.found
    obtain ⟨more, hm⟩ := h.leads.performAll commands
    have hn := (get?_streams_perform pick session hne).trans h.named
    refine ⟨items, later, published ++ more, source, hl, hlater ▸ hm, hn, h.reads.mono more, ?_⟩
    rw [reply?_eq_none hne, Option.toList_none, List.append_nil]
    exact h.given
  · obtain ⟨added, status, next, hreply, hnext, -⟩ := h.poll pick limit
    rw [hreply]
    exact ⟨_, entry, published, next, by simpa [reply?, Action.stream?] using hnext⟩

theorem Follows.performSteps
    (h : session.Follows slot name entityId bus replies items entry published source)
    {steps : List Step} (hk : ∀ step ∈ steps, step.action.Keeps name) :
    ∃ items' entry' published' source', (session.performSteps steps).Follows slot name entityId bus
      (replies ++ session.replies name steps) items' entry' published' source' := by
  refine performSteps_induction (motive := fun session replies =>
    ∃ items entry published source,
      session.Follows slot name entityId bus replies items entry published source) ?_ replies
    ⟨items, entry, published, source, h⟩ hk
  rintro session earlier step ha ⟨items, entry, published, source, h⟩
  exact h.perform step.pick ha

end

/-- The stream of the transitions of an entity, from the moment it is opened and through whatever is
done besides. Its polls give changes of the entity, and perhaps behind them the error that it has lagged.
The changes lead, each a transition that starts where the one before ended, from the state text that was
cached then to the one that is cached now, if a poll waits for more. If a poll tells the end, the stream
has lagged. -/
theorem transitions_unbroken (pick : List Nat → Nat) (session : Session) {slot : Nat} {bus : Bus}
    (h : session.bus? slot = some bus) (name entityId : String) (steps : List Step)
    (keeps : ∀ step ∈ steps, step.action.Keeps name) :
    let opened := (session.perform pick (.subscribe name (.transitions (.entity slot entityId)))).2
    let last := opened.performSteps steps
    ∃ (entry : BusSlot) (changes : List StateChange) (errors : List HubError) (text : Option String),
      last.slots[slot]? = some entry ∧
      (opened.replies name steps).flatMap (·.1) = changes.map .ok ++ errors.map .error ∧
      (errors = [] ∨ ∃ skipped, 0 < skipped ∧ errors = [.bus (.lagged skipped)]) ∧
      (∀ change ∈ changes, change.entityId = entityId) ∧
      Unbroken (bus.currentText entityId) changes text ∧
      ∀ choice limit, ∃ given status,
        (last.perform choice (.poll name limit)).1 = .polled given status ∧
        (status = .waiting → errors = [] ∧ ∃ further, given = further.map .ok ∧
          Unbroken (bus.currentText entityId) (changes ++ further) (entry.bus.currentText entityId)) ∧
        (status = .ended →
          ∃ skipped, .error (.bus (.lagged skipped)) ∈ errors.map Except.error ++ given) := by
  intro opened last
  obtain ⟨first, hopened⟩ := session.follows_subscribe pick h name entityId
  obtain ⟨items, entry, published, source, hlast⟩ := hopened.performSteps keeps
  rw [List.nil_append] at hlast
  obtain ⟨front, back, errors, rfl, rfl, herrors⟩ := hlast.reads.items_eq
  have hpassing : passing StateChange.isTransition (errors.map .error) = errors.map .error := by
    rcases herrors with rfl | ⟨skipped, -, rfl⟩ <;> rfl
  refine ⟨entry, ownTransitions entityId front, errors, _, hlast.found, ?_, herrors,
    fun change hm => ?_, hlast.leads.unbroken entityId, fun choice limit => ?_⟩
  · rw [hlast.given, passing_append, passing_ownItems, hpassing]
  · simp only [ownTransitions, List.mem_filter, beq_iff_eq] at hm
    exact hm.1.2
  · obtain ⟨added, status, next, hreply, -, hwaiting, hended⟩ := hlast.poll choice limit
    refine ⟨_, status, hreply, fun hw => ?_, fun he => ?_⟩
    · -- all that was published is read now, so nothing was lost on the way
      have hall := hwaiting hw
      have hnone : errors = [] := by
        rcases herrors with rfl | ⟨skipped, -, rfl⟩
        · rfl
        · refine absurd ?_ (error_notMem_ownItems (.bus (.lagged skipped)) entityId (front ++ back))
          simp [← hall]
      subst hnone
      rw [ownItems_append, List.map_nil, List.append_nil] at hall
      rw [List.append_cancel_left hall, passing_ownItems]
      refine ⟨rfl, _, rfl, ?_⟩
      rw [← ownTransitions_append]
      exact hlast.leads.unbroken_last entityId
    · obtain ⟨skipped, hm⟩ := hended he
      refine ⟨skipped, ?_⟩
      rw [List.append_assoc] at hm
      rw [← hpassing, ← passing_append]
      refine List.mem_filter.2 ⟨(List.mem_append.1 hm).resolve_left ?_, rfl⟩
      exact error_notMem_ownItems _ entityId _

def roomyBus : Bus := ⟨.ofNat 1, 2, [], [], [], []⟩

def blinkSteps : List Step :=
  [Action.setState 0 0 (flickering "on"), .poll "changes" none, .setState 0 5 (flickering "on"),
    .removeState 0 "light.a"].map (Step.mk fun _ => 0)

theorem transitions_unbroken_blink :
    (ofBuses [roomyBus]).bus? 0 = some roomyBus ∧
      (∀ step ∈ blinkSteps, step.action.Keeps "changes") ∧
      let opened := ((ofBuses [roomyBus]).perform (fun _ => 0)
        (.subscribe "changes" (.transitions (.entity 0 "light.a")))).2
      ∃ entry changes further, (opened.performSteps blinkSteps).slots[0]? = some entry ∧
        (opened.replies "changes" blinkSteps).flatMap (·.1) = changes.map .ok ∧
        ((opened.performSteps blinkSteps).perform (fun _ => 0) (.poll "changes" none)).1 =
          .polled (further.map .ok) .waiting ∧
        Unbroken none (changes ++ further) (entry.bus.currentText "light.a") := by
  have found : (ofBuses [roomyBus]).bus? 0 = some roomyBus := rfl
  have keeps : ∀ step ∈ blinkSteps, step.action.Keeps "changes" := by
    simp [blinkSteps, Action.Keeps]
  have replied : ((((ofBuses [roomyBus]).perform (fun _ => 0)
      (.subscribe "changes" (.transitions (.entity 0 "light.a")))).2.performSteps blinkSteps).perform
        (fun _ => 0) (.poll "changes" none)).1 = .polled [.ok ⟨"light.a", some (Bus.stamp 5
          (some (Bus.stamp 0 none (flickering "on"))) (flickering "on")), none⟩] .waiting := rfl
  refine ⟨found, keeps, ?_⟩
  obtain ⟨entry, changes, errors, -, hs, hgiven, -, -, -, hpolls⟩ :=
    transitions_unbroken (fun _ => 0) _ found "changes" "light.a" blinkSteps keeps
  obtain ⟨_, _, hpoll, hwaiting, -⟩ := hpolls (fun _ => 0) none
  obtain ⟨rfl, rfl⟩ := Outcome.polled.inj (hpoll.symm.trans replied)
  obtain ⟨rfl, further, hfurther, hchain⟩ := hwaiting rfl
  exact ⟨entry, changes, further, hs, by simpa using hgiven, hfurther ▸ replied, hchain⟩

/-- A stream that has lagged finds nothing more, whatever is cached now. -/
theorem transitions_unbroken_lagged :
    let opened := ((ofBuses [tightBus]).perform (fun _ => 0)
      (.subscribe "changes" (.transitions (.entity 0 "light.a")))).2
    let last := opened.performSteps lateSteps
    opened.replies "changes" lateSteps = [([.error (.bus (.lagged 1))], .ended)] ∧
      (last.perform (fun _ => 0) (.poll "changes" none)).1 = .polled [] .ended ∧
      tightBus.currentText "light.a" = none ∧
      last.slots.map (·.bus.currentText "light.a") = [some "off"] :=
  ⟨rfl, rfl, rfl, rfl⟩

end Session

end HomeHub
