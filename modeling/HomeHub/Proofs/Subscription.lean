import HomeHub.Proofs.Reader
import HomeHub.Proofs.SessionRuns

/-!
# Streams of one entity

Whatever else is done to a session, the stream of an entity gives the changes of that entity since it
was opened, in order and without a gap, until it has to tell that some are lost; then it is over.
-/

namespace HomeHub

def ownItems (entityId : String) (changes : List StateChange) : List Item :=
  (changes.filter (·.entityId == entityId)).map .ok

theorem ownItems_append (entityId : String) (first second : List StateChange) :
    ownItems entityId (first ++ second) = ownItems entityId first ++ ownItems entityId second := by
  simp [ownItems]

theorem Stream.owns_ofEntity (slot cursor : Nat) (entityId : String) :
    (ofEntity slot cursor entityId).owns slot = true := by
  simp [ofEntity, upToError, owns]

/-- A reader that has gone over some of what was published goes on through the rest. -/
theorem Stream.poll_ofEntity_published {slot read : Nat} (entityId : String) {instant : Instant}
    {bus : Bus} (hb : instant.buses[slot]? = some bus) (ho : instant.closed slot = false)
    {earlier published : List StateChange} (hlog : bus.log = earlier ++ published)
    (hr : read ≤ published.length) (hl : bus.lost (earlier.length + read) = 0) (limit : Option Nat) :
    ∃ count status, count ≤ published.length - read ∧
      (ofEntity slot (earlier.length + read) entityId).poll instant limit =
        (ownItems entityId ((published.drop read).take count), status,
          ofEntity slot (earlier.length + (read + count)) entityId) ∧
      status ≠ .ended ∧ (status = .waiting → count = published.length - read) := by
  have hlength : bus.log.length = earlier.length + published.length := by
    rw [hlog, List.length_append]
  have hcursor : earlier.length + read ≤ bus.log.length := by omega
  have hunread : bus.log.length - (earlier.length + read) = published.length - read := by omega
  have hdrop : bus.log.drop (earlier.length + read) = published.drop read := by
    rw [hlog, List.drop_length_add_append]
  obtain ⟨count, status, hc, hp, hs, hw⟩ := poll_ofEntity entityId hb ho hcursor hl limit
  rw [hunread] at hc hw
  rw [hdrop, Nat.add_assoc] at hp
  exact ⟨count, status, hc, hp, hs, hw⟩

/-- A stream of the changes of an entity that has given some items, since when its bus has published
some changes: it has gone over some of them, or it has failed and is over. -/
inductive Reads (slot start : Nat) (entityId : String) (published : List StateChange) :
    Stream → List Item → Prop where
  | reading {read : Nat} (h : read ≤ published.length) :
      Reads slot start entityId published (.ofEntity slot (start + read) entityId)
        (ownItems entityId (published.take read))
  | lagged {read skipped : Nat} {source : Stream} (h : read ≤ published.length) (hs : 0 < skipped) :
      Reads slot start entityId published (.untilError true source)
        (ownItems entityId (published.take read) ++ [.error (.bus (.lagged skipped))])

namespace Reads

variable {slot start : Nat} {entityId : String} {published : List StateChange} {stream : Stream}
  {items : List Item}

theorem mono (h : Reads slot start entityId published stream items) (more : List StateChange) :
    Reads slot start entityId (published ++ more) stream items := by
  cases h with
  | reading h =>
    rw [← List.take_append_of_le_length h]
    exact .reading (by rw [List.length_append]; omega)
  | lagged h hs =>
    rw [← List.take_append_of_le_length h]
    exact .lagged (by rw [List.length_append]; omega) hs

theorem poll (h : Reads slot start entityId published stream items) {instant : Instant} {bus : Bus}
    (hb : instant.buses[slot]? = some bus)
    (ho : stream.owns slot = true → instant.closed slot = false)
    {earlier : List StateChange} (hstart : earlier.length = start)
    (hlog : bus.log = earlier ++ published) (limit : Option Nat) :
    Reads slot start entityId published (stream.poll instant limit).2.2
      (items ++ (stream.poll instant limit).1) := by
  by_cases hlimit : limit = some 0
  · rw [hlimit, Stream.poll_zero, List.append_nil]
    exact h
  cases h with
  | @lagged read skipped source hr hs =>
    rw [Stream.poll_untilError_true instant source hlimit, List.append_nil]
    exact .lagged hr hs
  | @reading read hr =>
    subst hstart
    have hopen := ho (Stream.owns_ofEntity ..)
    by_cases hl : bus.lost (earlier.length + read) = 0
    · -- what is given now goes on from what was given before
      obtain ⟨count, status, hc, hp, -, -⟩ :=
        Stream.poll_ofEntity_published entityId hb hopen hlog hr hl limit
      rw [hp, ← ownItems_append, ← List.take_add]
      exact .reading (by omega)
    · obtain ⟨status, next, hp, -⟩ := Stream.poll_ofEntity_lagged entityId hb hopen hl hlimit
      rw [hp]
      exact .lagged hr (Nat.pos_of_ne_zero hl)

end Reads

namespace Session

/-- The stream of an entity, what it gave since its bus was as given, and what the bus published. -/
structure Watches (session : Session) (slot : Nat) (name entityId : String) (bus : Bus)
    (items : List Item) (entry : BusSlot) (published : List StateChange) (stream : Stream) : Prop where
  found : session.slots[slot]? = some entry
  capacity : entry.bus.capacity = bus.capacity
  log : entry.bus.log = bus.log ++ published
  named : session.streams.get? name = some stream
  reads : Reads slot bus.log.length entityId published stream items

section
variable {session : Session} {slot : Nat} {name entityId : String} {bus : Bus} {items : List Item}
  {entry : BusSlot} {published : List StateChange} {stream : Stream}

theorem Watches.perform (h : session.Watches slot name entityId bus items entry published stream)
    (pick : List Nat → Nat) {action : Action} (hk : action.Keeps name) :
    ∃ later more next, (session.perform pick action).2.Watches slot name entityId bus
      (items ++ gave name action (session.perform pick action).1) later (published ++ more) next := by
  rcases hk.cases with hne | ⟨limit, rfl⟩
  · obtain ⟨later, hl, hp⟩ := perform_grows pick session action slot entry h.found
    obtain ⟨more, hm⟩ := hp.log
    have hn := (get?_streams_perform pick session hne).trans h.named
    refine ⟨later, more, stream, hl, hp.capacity.trans h.capacity, ?_, hn, ?_⟩
    · rw [← hm, h.log, List.append_assoc]
    · rw [gave_eq_nil hne, List.append_nil]
      exact h.reads.mono more
  · have hp := h.reads.poll (buses_instant pick h.found) (closed_eq_false h.found h.named) rfl
      h.log limit
    rw [perform_poll pick limit h.named]
    refine ⟨entry, [], (stream.poll (session.instant pick) limit).2.2, h.found, h.capacity, ?_, ?_, ?_⟩
    · rw [List.append_nil, h.log]
    · exact Table.get?_insert_self ..
    · simpa only [gave_poll, List.append_nil] using hp

theorem Watches.performAll (h : session.Watches slot name entityId bus items entry published stream)
    (pick : List Nat → Nat) {actions : List Action} (hk : ∀ action ∈ actions, action.Keeps name) :
    ∃ later more next, (session.performAll pick actions).Watches slot name entityId bus
      (items ++ session.given pick name actions) later more next := by
  refine performSteps_induction (motive := fun session replies => ∃ entry published stream,
    session.Watches slot name entityId bus (items ++ replies.flatMap (·.1)) entry published stream)
    ?_ [] ⟨entry, published, stream, by simpa using h⟩ (List.forall_mem_map.2 hk)
  rintro session earlier step ha ⟨entry, published, stream, h⟩
  obtain ⟨later, more, next, hn⟩ := h.perform step.pick ha
  refine ⟨later, published ++ more, next, ?_⟩
  rwa [List.flatMap_append, ← List.append_assoc]

/-- The next poll of a stream that goes on: it tells what is lost exactly if more is unread than the
window has room for. -/
theorem poll_reading (pick : List Nat → Nat) {read : Nat} (hs : session.slots[slot]? = some entry)
    (hcapacity : entry.bus.capacity = bus.capacity) (hlog : entry.bus.log = bus.log ++ published)
    (hn : session.streams.get? name = some (.ofEntity slot (bus.log.length + read) entityId))
    (hr : read ≤ published.length) {limit : Option Nat} (hlimit : limit ≠ some 0) :
    ∃ items status next, session.perform pick (.poll name limit) = (.polled items status, next) ∧
      (bus.window < published.length - read ∧
          items = [.error (.bus (.lagged (published.length - read - bus.window)))] ∨
        published.length - read ≤ bus.window ∧ ∃ count, count ≤ published.length - read ∧
          items = ownItems entityId ((published.drop read).take count) ∧ status ≠ .ended ∧
          (status = .waiting → count = published.length - read)) := by
  have hb := buses_instant pick hs
  have ho := closed_eq_false hs hn (Stream.owns_ofEntity ..)
  have hlength : entry.bus.log.length = bus.log.length + published.length := by
    rw [hlog, List.length_append]
  have hlost : entry.bus.lost (bus.log.length + read) = published.length - read - bus.window := by
    rw [Bus.lost, Bus.window, hcapacity, ← Bus.window, hlength]
    omega
  rw [perform_poll pick limit hn]
  by_cases hl : entry.bus.lost (bus.log.length + read) = 0
  · obtain ⟨count, status, hc, hp, hstatus, hw⟩ :=
      Stream.poll_ofEntity_published entityId hb ho hlog hr hl limit
    rw [hp]
    exact ⟨_, status, _, rfl, .inr ⟨by omega, count, hc, rfl, hstatus, hw⟩⟩
  · obtain ⟨status, next, hp, -⟩ := Stream.poll_ofEntity_lagged entityId hb ho hl hlimit
    rw [hp, hlost]
    exact ⟨_, status, _, rfl, .inl ⟨by omega, rfl⟩⟩

theorem watches_subscribe (pick : List Nat → Nat) (h : session.bus? slot = some bus)
    (name entityId : String) :
    ∃ entry, (session.perform pick (.subscribe name (.entity slot entityId))).2.Watches slot name
      entityId bus [] entry [] (.ofEntity slot bus.log.length entityId) := by
  rw [perform_subscribe_of_bus pick name h rfl, Plan.start, logLength_eq h]
  obtain ⟨entry, hs, -, rfl⟩ := bus?_eq_some h
  refine ⟨entry, hs, rfl, by simp, Table.get?_insert_self .., ?_⟩
  exact .reading (Nat.zero_le _)

end

/-- The stream of an entity, from the moment it is opened and through whatever is done besides. What
it has given are the changes of the entity among the first ones published since, all of them and in
order, and perhaps the error that it has lagged, behind which there is nothing. The next poll gives
that error exactly if more changes are unread than the window of the bus has room for, and else goes
on where the last one stopped; it waits only when all that was published is read. -/
theorem entity_stream (pick : List Nat → Nat) (session : Session) {slot : Nat} {bus : Bus}
    (h : session.bus? slot = some bus) (name entityId : String) (actions : List Action)
    (keeps : ∀ action ∈ actions, action.Keeps name) :
    let opened := (session.perform pick (.subscribe name (.entity slot entityId))).2
    let last := opened.performAll pick actions
    ((∃ exponent, bus.window = twoTo exponent) ∧ bus.capacity ≤ bus.window ∧
      ∀ exponent, bus.capacity ≤ twoTo exponent → bus.window ≤ twoTo exponent) ∧
    ∃ entry published read, last.slots[slot]? = some entry ∧
      entry.bus.log = bus.log ++ published ∧ read ≤ published.length ∧
      ((opened.given pick name actions = ownItems entityId (published.take read) ∧
          last.streams.get? name = some (.ofEntity slot (bus.log.length + read) entityId) ∧
          ∀ limit, limit ≠ some 0 → ∃ items status next,
            last.perform pick (.poll name limit) = (.polled items status, next) ∧
            (bus.window < published.length - read ∧
                items = [.error (.bus (.lagged (published.length - read - bus.window)))] ∨
              published.length - read ≤ bus.window ∧ ∃ count, count ≤ published.length - read ∧
                items = ownItems entityId ((published.drop read).take count) ∧ status ≠ .ended ∧
                (status = .waiting → count = published.length - read))) ∨
        ∃ skipped, 0 < skipped ∧
          opened.given pick name actions =
            ownItems entityId (published.take read) ++ [.error (.bus (.lagged skipped))] ∧
          ∀ limit, limit ≠ some 0 →
            (last.perform pick (.poll name limit)).1 = .polled [] .ended) := by
  intro opened last
  obtain ⟨first, hopened⟩ := session.watches_subscribe pick h name entityId
  obtain ⟨entry, published, stream, hlast⟩ := hopened.performAll pick keeps
  obtain ⟨hs, hcapacity, hlog, hn, hreads⟩ := hlast
  refine ⟨bus.window_isLeast, entry, published, ?_⟩
  generalize hitems : [] ++ opened.given pick name actions = items at hreads
  rw [List.nil_append] at hitems
  cases hreads with
  | @lagged read skipped source hr hskipped =>
    refine ⟨read, hs, hlog, hr, .inr ⟨skipped, hskipped, hitems, fun limit hlimit => ?_⟩⟩
    rw [perform_poll pick limit hn, Stream.poll_untilError_true _ _ hlimit]
  | @reading read hr =>
    exact ⟨read, hs, hlog, hr, .inl ⟨hitems, hn, fun limit hlimit =>
      poll_reading pick hs hcapacity hlog hn hr hlimit⟩⟩

def tightBus : Bus := ⟨.ofNat 1, 1, [], [], [], []⟩

def flickering (text : String) : EntityState := ⟨"light.a", some text, .null, none, none, none⟩

def flicker : List Action := [.setState 0 0 (flickering "on"), .setState 0 5 (flickering "off")]

theorem entity_stream_flicker :
    (ofBuses [tightBus]).bus? 0 = some tightBus ∧ (∀ action ∈ flicker, action.Keeps "changes") ∧
      ∃ status next,
        ((((ofBuses [tightBus]).perform (fun _ => 0)
              (.subscribe "changes" (.entity 0 "light.a"))).2.performAll (fun _ => 0) flicker).perform
            (fun _ => 0) (.poll "changes" none)) =
          (.polled [.error (.bus (.lagged 1))] status, next) := by
  have opened : (ofBuses [tightBus]).bus? 0 = some tightBus := rfl
  have keeps : ∀ action ∈ flicker, action.Keeps "changes" := by
    simp [flicker, Action.Keeps]
  refine ⟨opened, keeps, ?_⟩
  obtain ⟨-, entry, published, read, hs, hlog, hr, hreads⟩ :=
    entity_stream (fun _ => 0) _ opened "changes" "light.a" flicker keeps
  have hentry : entry.bus.log = [
      ⟨"light.a", none, some (Bus.stamp 0 none (flickering "on"))⟩,
      ⟨"light.a", some (Bus.stamp 0 none (flickering "on")),
        some (Bus.stamp 5 (some (Bus.stamp 0 none (flickering "on"))) (flickering "off"))⟩] :=
    congrArg (fun entry : BusSlot => entry.bus.log) (Option.some.inj hs).symm
  obtain rfl := hlog.symm.trans hentry
  have hnone : ((ofBuses [tightBus]).perform (fun _ => 0)
      (.subscribe "changes" (.entity 0 "light.a"))).2.given (fun _ => 0) "changes" flicker = [] := rfl
  rcases hreads with ⟨hgiven, -, hpoll⟩ | ⟨skipped, -, hgiven, -⟩
  · have hread : read = 0 := by
      cases read with
      | zero => rfl
      | succ read => simp [hnone, ownItems] at hgiven
    obtain ⟨items, status, next, hp, ⟨-, rfl⟩ | ⟨hle, -⟩⟩ := hpoll none (by simp)
    · subst hread
      exact ⟨status, next, hp⟩
    · subst hread
      exact absurd hle (by decide)
  · simp [hnone] at hgiven

end Session

end HomeHub
