import HomeHub.Proofs.Draining
import HomeHub.Proofs.Owners

/-!
# Closing follows ownership

A stream that is put together from handles keeps their buses open and is never told that one is closed.
A bare feed keeps nothing open: once its bus has lost the last owner it gives what it would have given
otherwise, then tells once that the bus is closed, and then the end.
-/

namespace HomeHub

namespace Session

-- ---------------------------------------------------------------------------
-- Streams of handles
-- ---------------------------------------------------------------------------

section
variable {session : Session} {slots : List Nat} {name : String} {stream : Stream}

structure IsHeldOpen (session : Session) (slots : List Nat) (name : String) (stream : Stream) : Prop where
  named : session.streams.get? name = some stream
  holds : stream.Holds (Stream.IsHandle slots) slots
  present : ∀ slot ∈ slots, slot < session.slots.length

theorem IsHeldOpen.closed_eq_false (h : session.IsHeldOpen slots name stream) :
    ∀ slot ∈ slots, session.closed slot = false := by
  intro slot hslot
  have hs := List.getElem?_eq_getElem (h.present slot hslot)
  exact Session.closed_eq_false hs h.named ((h.holds.owns slot).2 hslot)

theorem IsHeldOpen.perform (h : session.IsHeldOpen slots name stream) (pick : List Nat → Nat)
    {action : Action} (hk : action.Keeps name) :
    (∃ next, (session.perform pick action).2.IsHeldOpen slots name next) ∧
      ∀ reply ∈ reply? name action (session.perform pick action).1,
        .error (.bus .closed) ∉ reply.1 := by
  have hpresent : ∀ slot ∈ slots, slot < (session.perform pick action).2.slots.length := by
    rw [length_slots_perform]
    exact h.present
  rcases hk.cases with hne | ⟨limit, rfl⟩
  · refine ⟨⟨stream, (get?_streams_perform pick session hne).trans h.named, h.holds, hpresent⟩, ?_⟩
    rw [reply?_eq_none hne]
    simp
  · have hopen : ∀ slot ∈ slots, (session.instant pick).closed slot = false := h.closed_eq_false
    have hpoll := h.holds.poll (Stream.runSteadily_isHandle hopen) hopen limit
    rw [perform_poll pick limit h.named] at hpresent ⊢
    refine ⟨⟨_, Table.get?_insert_self .., hpoll.1, hpresent⟩, ?_⟩
    intro reply hr hm
    obtain rfl : _ = reply := by simpa [reply?, Action.stream?] using hr
    exact hpoll.2 _ hm rfl

theorem IsHeldOpen.performSteps (h : session.IsHeldOpen slots name stream) {steps : List Step}
    (hk : ∀ step ∈ steps, step.action.Keeps name) :
    (∃ next, (session.performSteps steps).IsHeldOpen slots name next) ∧
      ∀ reply ∈ session.replies name steps, .error (.bus .closed) ∉ reply.1 := by
  refine performSteps_induction (motive := fun session replies =>
    (∃ next, session.IsHeldOpen slots name next) ∧
      ∀ reply ∈ replies, .error (.bus .closed) ∉ reply.1) ?_ [] ⟨⟨stream, h⟩, by simp⟩ hk
  rintro session earlier step ha ⟨⟨stream, h⟩, hearlier⟩
  obtain ⟨hnext, hreply⟩ := h.perform step.pick ha
  exact ⟨hnext, List.forall_mem_append.2
    ⟨hearlier, fun reply hm => hreply reply (Option.mem_toList.1 hm)⟩⟩

end

-- ---------------------------------------------------------------------------
-- Bare feeds of closed buses
-- ---------------------------------------------------------------------------

def limit? (name : String) : Action → Option (Option Nat)
  | .poll other limit => if other = name then some limit else none
  | _ => none

theorem limit?_eq_none {name : String} {action : Action} (h : action.stream? ≠ some name) :
    limit? name action = none := by
  cases action with
  | poll other limit => exact if_neg fun heq => h (congrArg some heq)
  | _ => rfl

def limits (name : String) (steps : List Step) : List (Option Nat) :=
  steps.filterMap fun step => limit? name step.action

/-- The session as if it still had its reference to a bus. -/
def regain (session : Session) (slot : Nat) : Session :=
  session.changeSlot slot fun entry => { entry with referenced := true }

section
variable {session : Session} {plans : Table Plan} {slot : Nat} {name : String} {entry : BusSlot}
  {stream : Stream} {given left : List Item} {cursor : Nat}

structure IsDraining (session : Session) (plans : Table Plan) (slot : Nat) (name : String)
    (entry : BusSlot) (stream : Stream) (left : List Item) : Prop where
  opened : session.HasOpened plans
  found : session.slots[slot]? = some entry
  closed : session.closed slot = true
  named : session.streams.get? name = some stream
  drains : stream.Drains entry.bus slot left

theorem IsDraining.perform (h : session.IsDraining plans slot name entry stream left)
    {step : Step} (hk : step.action.Keeps name) (limits : List (Option Nat)) :
    ∃ later next rest, (session.perform step.pick step.action).2.IsDraining
        (session.plansAfter plans step.action) slot name later next rest ∧
      (reply? name step.action (session.perform step.pick step.action).1).toList ++ deals rest limits =
        deals left ((limit? name step.action).toList ++ limits) := by
  obtain ⟨hclosed, later, hl, hp, hlog⟩ :=
    h.opened.closed_perform h.found h.closed step.pick step.action
  have hopened := h.opened.perform step.pick step.action
  have hdrains := h.drains.congr hp.capacity hlog
  obtain ⟨pick, action⟩ := step
  rcases hk.cases with hne | ⟨limit, rfl⟩
  · -- the log of the bus does not grow any more, so what is left stays what it is
    have hn := (get?_streams_perform pick session hne).trans h.named
    refine ⟨later, stream, left, ⟨hopened, hl, hclosed, hn, hdrains⟩, ?_⟩
    rw [reply?_eq_none hne, limit?_eq_none hne]
    rfl
  · obtain ⟨next, hpoll, hnext⟩ :=
      h.drains.poll (buses_instant pick h.found) h.closed limit
    rw [perform_poll pick limit h.named, hpoll] at hopened hl hclosed ⊢
    obtain rfl := Option.some.inj (h.found.symm.trans hl)
    refine ⟨entry, next, _, ⟨hopened, hl, hclosed, Table.get?_insert_self .., hnext⟩, ?_⟩
    simp [reply?, Action.stream?, limit?, deals]

theorem IsDraining.replies (h : session.IsDraining plans slot name entry stream left)
    {steps : List Step} (hk : ∀ step ∈ steps, step.action.Keeps name) :
    session.replies name steps = deals left (limits name steps) := by
  induction steps generalizing session plans entry stream left with
  | nil => cases left <;> rfl
  | cons step rest ih =>
    obtain ⟨ha, hr⟩ := List.forall_mem_cons.1 hk
    obtain ⟨later, next, more, hnext, hdeals⟩ := h.perform ha (limits name rest)
    have hlimits : limits name (step :: rest) =
        (limit? name step.action).toList ++ limits name rest := by
      unfold limits
      cases hl : limit? name step.action <;> simp [hl]
    rw [Session.replies, ih hnext hr, hdeals, hlimits]

-- ---------------------------------------------------------------------------
-- Bare feeds
-- ---------------------------------------------------------------------------

structure IsTelling (session : Session) (slot : Nat) (name : String) (given : List Item) : Prop where
  opened : ∃ plans, session.HasOpened plans
  present : slot < session.slots.length
  told : ∃ stream, session.streams.get? name = some stream ∧
    stream.HasTold slot (session.closed slot) given

theorem IsTelling.perform (h : session.IsTelling slot name given) (pick : List Nat → Nat)
    {action : Action} (hk : action.Keeps name) :
    (session.perform pick action).2.IsTelling slot name
      (given ++ (reply? name action (session.perform pick action).1).toList.flatMap (·.1)) := by
  obtain ⟨plans, hopened⟩ := h.opened
  obtain ⟨stream, hn, htold⟩ := h.told
  have hs := List.getElem?_eq_getElem h.present
  have hclosed := fun hc => (hopened.closed_perform hs hc pick action).1
  refine ⟨⟨_, hopened.perform pick action⟩, (length_slots_perform ..).symm ▸ h.present, ?_⟩
  rcases hk.cases with hne | ⟨limit, rfl⟩
  · refine ⟨stream, (get?_streams_perform pick session hne).trans hn, ?_⟩
    rw [reply?_eq_none hne, Option.toList_none, List.flatMap_nil, List.append_nil]
    exact htold.mono hclosed
  · have hinstant : stream.HasTold slot ((session.instant pick).closed slot) given := htold
    have hpoll := hinstant.poll (buses_instant pick hs) limit
    rw [perform_poll pick limit hn] at hclosed ⊢
    refine ⟨_, Table.get?_insert_self .., ?_⟩
    simpa [reply?, Action.stream?] using hpoll.mono hclosed

theorem IsTelling.performSteps (h : session.IsTelling slot name []) {steps : List Step}
    (hk : ∀ step ∈ steps, step.action.Keeps name) :
    (session.performSteps steps).IsTelling slot name ((session.replies name steps).flatMap (·.1)) := by
  refine performSteps_induction (motive := fun session replies =>
    session.IsTelling slot name (replies.flatMap (·.1))) ?_ [] h hk
  intro session earlier step ha h
  rw [List.flatMap_append]
  exact h.perform step.pick ha

/-- What is left to give of a bare feed whose bus has lost its last owner, behind the items that it has
given since it was opened. -/
structure IsEnding (last : Session) (slot : Nat) (name : String) (given left : List Item) : Prop where
  /-- That the bus is closed is told once, by the last item of all. -/
  once : ∃ received, given ++ left = received ++ [.error (.bus .closed)] ∧
    .error (.bus .closed) ∉ received
  /-- Whatever is done, polls are dealt what is left, and then the end. -/
  replies : ∀ steps, (∀ step ∈ steps, step.action.Keeps name) →
    last.replies name steps = deals left (limits name steps)
  /-- In front stands what the feed would give if the session still had its reference. -/
  unread : .error (.bus .closed) ∉ given → ∃ rest, left = rest ++ [.error (.bus .closed)] ∧
    ∀ pick, ((last.regain slot).perform pick (.poll name none)).1 = .polled rest .waiting

theorem poll_regain (hn : session.streams.get? name = some (.feed slot false cursor))
    (hs : session.slots[slot]? = some entry) (pick : List Nat → Nat) :
    ((session.regain slot).perform pick (.poll name none)).1 =
      .polled (entry.bus.unread cursor) .waiting := by
  have hslot : (session.regain slot).slots[slot]? = some { entry with referenced := true } :=
    (getElem?_changeSlot hs slot _).trans (congrArg some (if_pos rfl))
  have hopen : (session.regain slot).closed slot = false := by
    simp [Session.closed, hslot]
  have hnamed : (session.regain slot).streams.get? name = some (.feed slot false cursor) := hn
  obtain ⟨next, hpoll⟩ := Stream.poll_feed_open (buses_instant pick hslot) hopen cursor
  rw [perform_poll pick none hnamed, hpoll]

theorem IsTelling.exists_isEnding (h : session.IsTelling slot name given)
    (hc : session.closed slot = true) : ∃ left, session.IsEnding slot name given left := by
  obtain ⟨plans, ho⟩ := h.opened
  obtain ⟨stream, hn, htold⟩ := h.told
  obtain ⟨entry, hs⟩ : ∃ entry, session.slots[slot]? = some entry :=
    ⟨_, List.getElem?_eq_getElem h.present⟩
  cases htold with
  | feed cursor hg =>
    have hdraining : session.IsDraining plans slot name entry (.feed slot false cursor) _ :=
      ⟨ho, hs, hc, hn, .feed cursor⟩
    refine ⟨_, ⟨given ++ entry.bus.unread cursor, (List.append_assoc ..).symm, ?_⟩,
      fun steps hk => hdraining.replies hk, fun _ => ⟨_, rfl, poll_regain hn hs⟩⟩
    exact fun hm => (List.mem_append.1 hm).elim hg (entry.bus.closed_notMem_unread cursor)
  | @told earlier _ hg =>
    have hdraining : session.IsDraining plans slot name entry .over [] := ⟨ho, hs, hc, hn, .spent⟩
    refine ⟨_, ⟨earlier, List.append_nil _, hg⟩, fun steps hk => hdraining.replies hk, fun hm => ?_⟩
    exact absurd (List.mem_append_right _ (List.mem_singleton_self _)) hm

theorem IsTelling.closed_notMem (h : session.IsTelling slot name given)
    (hc : session.closed slot = false) : .error (.bus .closed) ∉ given := by
  obtain ⟨stream, -, htold⟩ := h.told
  exact (hc ▸ htold).closed_notMem

end

theorem get?_subscribe {session : Session} (pick : List Nat → Nat) (name : String) {plan : Plan}
    (h : ∀ slot ∈ plan.buses, (session.bus? slot).isSome = true) :
    (session.perform pick (.subscribe name plan)).2.streams.get? name =
      some (plan.start session.logLength) := by
  rw [perform_subscribe_of_buses pick name h]
  exact Table.get?_insert_self ..

/-- A stream that is put together from handles keeps their buses open and tells of none that it is
closed. -/
theorem handles_keep_open (session : Session) (pick : List Nat → Nat) (name : String) {plan : Plan}
    (h : plan.OfHandles) (hbuses : ∀ slot ∈ plan.buses, (session.bus? slot).isSome = true)
    {steps : List Step} (hk : ∀ step ∈ steps, step.action.Keeps name) :
    let opened := (session.perform pick (.subscribe name plan)).2
    (∀ reply ∈ opened.replies name steps, .error (.bus .closed) ∉ reply.1) ∧
      ∀ slot ∈ plan.buses, (opened.performSteps steps).closed slot = false := by
  intro opened
  have hopened : opened.IsHeldOpen plan.buses name (plan.start session.logLength) := by
    refine ⟨get?_subscribe pick name hbuses, Stream.holds_start_of_handles h _, fun slot hslot => ?_⟩
    rw [length_slots_perform]
    exact lt_length_of_bus? (hbuses slot hslot)
  obtain ⟨⟨next, hlast⟩, hreplies⟩ := hopened.performSteps hk
  exact ⟨hreplies, hlast.closed_eq_false⟩

/-- A bare feed tells nothing of closing while its bus has an owner, and ends once it has none. -/
theorem feed_ends_without_owner (buses : List Bus) (before : List Step) (pick : List Nat → Nat)
    (name : String) {slot : Nat}
    (h : (((ofBuses buses).performSteps before).bus? slot).isSome = true) {during : List Step}
    (hk : ∀ step ∈ during, step.action.Keeps name) :
    let opened := (((ofBuses buses).performSteps before).perform pick (.subscribe name (.bus slot))).2
    let given := (opened.replies name during).flatMap (·.1)
    let steps := before ++ ⟨pick, .subscribe name (.bus slot)⟩ :: during
    (HasOwner buses steps slot → .error (.bus .closed) ∉ given) ∧
      (¬ HasOwner buses steps slot →
        ∃ left, (opened.performSteps during).IsEnding slot name given left) := by
  intro opened given steps
  have hslot : slot < buses.length := by
    have hlt := lt_length_of_bus? h
    rw [length_slots_performSteps] at hlt
    simpa [ofBuses] using hlt
  have hsteps : (ofBuses buses).performSteps steps = opened.performSteps during :=
    performSteps_append _ before _
  have hopened : opened.IsTelling slot name [] := by
    refine ⟨⟨_, ((hasOpened_ofBuses buses).performSteps before).perform pick _⟩, ?_,
      _, get?_subscribe pick name (by simpa [Plan.buses] using h), .feed _ List.not_mem_nil⟩
    rw [length_slots_perform]
    exact lt_length_of_bus? h
  have htold := hopened.performSteps hk
  have hclosed := closed_performSteps hslot steps
  rw [hsteps] at hclosed
  refine ⟨fun howner => htold.closed_notMem ?_, fun hnone => htold.exists_isEnding (hclosed.2 hnone)⟩
  rw [← Bool.not_eq_true, hclosed, not_not]
  exact howner

/-- Closing follows ownership, in whatever order buses are written, streams opened, polled and dropped
and references dropped. A stream that is put together from handles keeps their buses open and is never
told that one is closed. A bare feed is not told so while its bus has an owner; once the bus has none,
the feed is dealt all it would still have been given, then once that the bus is closed, and then the
end. -/
theorem closing_follows_ownership (buses : List Bus) (before : List Step) (pick : List Nat → Nat)
    (name : String) (during : List Step) (keeps : ∀ step ∈ during, step.action.Keeps name) :
    let session := (ofBuses buses).performSteps before
    (∀ plan : Plan, plan.OfHandles → (∀ slot ∈ plan.buses, (session.bus? slot).isSome = true) →
      let opened := (session.perform pick (.subscribe name plan)).2
      (∀ reply ∈ opened.replies name during, .error (.bus .closed) ∉ reply.1) ∧
        ∀ slot ∈ plan.buses, (opened.performSteps during).closed slot = false) ∧
    ∀ slot, (session.bus? slot).isSome = true →
      let opened := (session.perform pick (.subscribe name (.bus slot))).2
      let given := (opened.replies name during).flatMap (·.1)
      let steps := before ++ ⟨pick, .subscribe name (.bus slot)⟩ :: during
      (HasOwner buses steps slot → .error (.bus .closed) ∉ given) ∧
        (¬ HasOwner buses steps slot →
          ∃ left, (opened.performSteps during).IsEnding slot name given left) := by
  intro session
  exact ⟨fun plan hplan hbuses => handles_keep_open session pick name hplan hbuses keeps,
    fun slot hslot => feed_ends_without_owner buses before pick name hslot keeps⟩

def heldPlan : Plan := .held (fun _ state => state.isSome) 0 (.transitions (.entity 0 "light.a"))

def finalSteps : List Step := (flicker ++ [Action.dropBus 0]).map (Step.mk fun _ => 0)

def finalPolls : List Step :=
  [Action.poll "changes" (some 1), .poll "changes" none, .poll "changes" none].map
    (Step.mk fun _ => 0)

def leftFeed : Session :=
  ((ofBuses [tightBus]).perform (fun _ => 0) (.subscribe "changes" (.bus 0))).2.performSteps finalSteps

theorem closing_follows_ownership_flicker :
    (∀ step ∈ finalSteps, step.action.Keeps "changes") ∧
    (heldPlan.OfHandles ∧ (∀ slot ∈ heldPlan.buses, ((ofBuses [tightBus]).bus? slot).isSome = true) ∧
      (((ofBuses [tightBus]).perform (fun _ => 0) (.subscribe "changes" heldPlan)).2.performSteps
        finalSteps).closed 0 = false) ∧
    ((ofBuses [tightBus]).bus? 0).isSome = true ∧
    ¬ HasOwner [tightBus] (⟨fun _ => 0, .subscribe "changes" (.bus 0)⟩ :: finalSteps) 0 ∧
    ∃ change, leftFeed.replies "changes" finalPolls =
      [([.error (.bus (.lagged 1))], .full), ([.ok change, .error (.bus .closed)], .ended),
        ([], .ended)] := by
  have keeps : ∀ step ∈ finalSteps, step.action.Keeps "changes" := by
    simp [finalSteps, flicker, Action.Keeps]
  have polls : ∀ step ∈ finalPolls, step.action.Keeps "changes" := by
    simp [finalPolls, Action.Keeps]
  have handles : heldPlan.OfHandles := .held _ _ (.transitions (.entity ..))
  have buses : ∀ slot ∈ heldPlan.buses, ((ofBuses [tightBus]).bus? slot).isSome = true := by decide
  have noOwner : ¬ HasOwner [tightBus]
      (⟨fun _ => 0, .subscribe "changes" (.bus 0)⟩ :: finalSteps) 0 := by
    have plans : (ofBuses [tightBus]).openPlans []
        (⟨fun _ => 0, .subscribe "changes" (.bus 0)⟩ :: finalSteps) = [("changes", .bus 0)] := rfl
    rintro (kept | ⟨name, plan, found, handle⟩)
    · exact kept ⟨fun _ => 0, .dropBus 0⟩ (by simp [finalSteps]) rfl
    · rw [plans] at found
      obtain ⟨-, rfl⟩ := Prod.mk.inj (List.mem_singleton.1 (Table.mem_of_get?_eq_some found))
      simp [Plan.handles] at handle
  have closing := closing_follows_ownership [tightBus] [] (fun _ => 0) "changes" finalSteps keeps
  refine ⟨keeps, ⟨handles, buses, (closing.1 heldPlan handles buses).2 0 (by decide)⟩, rfl, noOwner, ?_⟩
  obtain ⟨left, ending⟩ := (closing.2 0 rfl).2 noOwner
  obtain ⟨rest, rfl, regained⟩ := ending.unread List.not_mem_nil
  have unread : ∃ change, ((leftFeed.regain 0).perform (fun _ => 0) (.poll "changes" none)).1 =
      .polled [.error (.bus (.lagged 1)), .ok change] .waiting := ⟨_, rfl⟩
  obtain ⟨change, unread⟩ := unread
  obtain ⟨rfl, -⟩ := Outcome.polled.inj (unread.symm.trans (regained fun _ => 0))
  exact ⟨change, ending.replies finalPolls polls⟩

end Session

end HomeHub
