import HomeHub.Proofs.HeldRun

/-!
# Held on the bus

What the held stream of an entity gives was held by the bus itself: since the change was written, the
predicate has been true of all that the bus cached for the entity. Between the writes behind two items
there is one that made the predicate false.
-/

namespace HomeHub

-- ---------------------------------------------------------------------------
-- Chains of changes
-- ---------------------------------------------------------------------------

section
variable {p : Option EntityState → Bool} {bus last : Bus} {published front back : List StateChange}
  {change : StateChange} {entityId : String}

theorem Bus.Leads.getElem?_log (h : bus.Leads (front ++ change :: back) last) :
    last.log[bus.log.length + front.length]? = some change := by
  rw [h.log, List.getElem?_append_right (Nat.le_add_right _ _), Nat.add_sub_cancel_left]
  simp

theorem Bus.Leads.exists_turn {between : List StateChange}
    (h : bus.Leads (front ++ change :: (between ++ back)) last) (hown : change.entityId = entityId)
    (htrue : p change.new = true)
    (hfalse : p (StateChange.left (bus.currentState entityId) (front ++ change :: between) entityId) =
      false) :
    ∃ before write after, between = before ++ write :: after ∧ write.entityId = entityId ∧
      p write.old = true ∧ p write.new = false := by
  induction between using List.reverseRecOn generalizing back with
  | nil =>
    rw [StateChange.left_concat, if_pos hown, htrue] at hfalse
    contradiction
  | append_singleton rest other ih =>
    rw [List.append_assoc, List.singleton_append] at h
    rw [← List.cons_append, ← List.append_assoc, StateChange.left_concat] at hfalse
    have hrest (hkept : p (StateChange.left (bus.currentState entityId) (front ++ change :: rest)
        entityId) = false) : ∃ before write after, rest ++ [other] = before ++ write :: after ∧
          write.entityId = entityId ∧ p write.old = true ∧ p write.new = false := by
      obtain ⟨before, write, after, rfl, hw⟩ := ih h hkept
      exact ⟨before, write, after ++ [other], by simp, hw⟩
    by_cases ho : other.entityId = entityId
    · rw [if_pos ho] at hfalse
      rw [← List.cons_append, ← List.append_assoc] at h
      have hold := ho ▸ h.old_eq
      cases hp : p other.old with
      | true => exact ⟨rest, other, [], rfl, ho, hp, hfalse⟩
      | false => exact hrest (hold ▸ hp)
    · rw [if_neg ho] at hfalse
      exact hrest hfalse

theorem Bus.Leads.stays (h : bus.Leads (front ++ change :: back) last)
    (hown : change.entityId = entityId) (hnew : p change.new = true)
    (hplain : ∀ other ∈ back, other.entityId = entityId → ¬ IsEdge p other)
    {later : List StateChange} (hlater : later <+: back) :
    p (StateChange.left (bus.currentState entityId) (front ++ change :: later) entityId) = true := by
  by_contra hfalse
  obtain ⟨rest, rfl⟩ := hlater
  obtain ⟨before, write, after, rfl, hw, ho, hn⟩ := h.exists_turn hown hnew (by simpa using hfalse)
  exact hplain write (by simp) hw (by simp [IsEdge, ho, hn])

/-- Between a change that made a predicate true and a later one that found it false there is one that
made it false. -/
theorem Bus.Leads.exists_false {earlier : StateChange} {between : List StateChange}
    (h : bus.Leads (front ++ earlier :: (between ++ change :: back)) last)
    (howns : earlier.entityId = entityId) (htrue : p earlier.new = true)
    (hown : change.entityId = entityId) (hfalse : p change.old = false) :
    ∃ middle write, bus.log.length + front.length < middle ∧
      middle < bus.log.length + (front ++ earlier :: between).length ∧
      last.log[middle]? = some write ∧ write.entityId = entityId ∧ p write.old = true ∧
      p write.new = false := by
  have hold : change.old =
      StateChange.left (bus.currentState entityId) (front ++ earlier :: between) entityId := by
    rw [← List.cons_append, ← List.append_assoc] at h
    exact hown ▸ h.old_eq
  obtain ⟨before, write, after, rfl, hw⟩ := h.exists_turn howns htrue (hold ▸ hfalse)
  have hsplit : bus.Leads ((front ++ earlier :: before) ++ write :: (after ++ change :: back)) last := by
    simpa using h
  refine ⟨bus.log.length + (front ++ earlier :: before).length, write, ?_, ?_, hsplit.getElem?_log, hw⟩
  · simp
  · simp

theorem ownChanges_append_cons (hown : change.entityId = entityId) (front back : List StateChange) :
    ownChanges entityId (front ++ change :: back) =
      ownChanges entityId front ++ change :: ownChanges entityId back := by
  simp [ownChanges, hown]

theorem LastEdge.exists_eq_append {drained : List (Nat × StateChange)} {place taken : Nat}
    (h : LastEdge p drained place taken change)
    (hd : drained.map Prod.snd = ownChanges entityId published) :
    ∃ front back, published = front ++ change :: back ∧ change.entityId = entityId ∧
      (ownChanges entityId front).length = place ∧
      ∀ other ∈ back, other.entityId = entityId → ¬ IsEdge p other := by
  have hfound : (ownChanges entityId published)[place]? = some change := by
    rw [← hd, List.getElem?_map, h.found]
    rfl
  obtain ⟨front, back, rfl, ho, rfl⟩ := exists_eq_append_of_getElem?_filter hfound
  have ho : change.entityId = entityId := by simpa using ho
  refine ⟨front, back, rfl, ho, rfl, fun other hm hown => ?_⟩
  have hmem : other ∈ ownChanges entityId back := List.mem_filter.2 ⟨hm, by simpa using hown⟩
  obtain ⟨index, hi⟩ := List.getElem?_of_mem hmem
  have hlater : (drained.map Prod.snd)[(ownChanges entityId front).length + (index + 1)]? = some other := by
    rw [hd, ownChanges_append_cons ho, List.getElem?_append_right (Nat.le_add_right _ _),
      Nat.add_sub_cancel_left, List.getElem?_cons_succ, hi]
  rw [List.getElem?_map] at hlater
  obtain ⟨found, hf, rfl⟩ := Option.map_eq_some_iff.1 hlater
  exact h.last _ found (Nat.lt_add_of_pos_right (Nat.succ_pos index)) hf

/-- The last edge does not depend on the times at which changes were drained. -/
theorem LastEdge.place_eq {drained drained' : List (Nat × StateChange)} {place place' taken taken' : Nat}
    {change' : StateChange} (h : LastEdge p drained place taken change)
    (h' : LastEdge p drained' place' taken' change')
    (hd : drained.map Prod.snd = drained'.map Prod.snd) : place = place' := by
  have found {first second : List (Nat × StateChange)} (heq : first.map Prod.snd = second.map Prod.snd)
      {index time : Nat} {edge : StateChange} (hf : first[index]? = some (time, edge)) :
      ∃ other, second[index]? = some (other, edge) := by
    have hs : (second.map Prod.snd)[index]? = some edge := by
      rw [← heq, List.getElem?_map, hf]
      rfl
    rw [List.getElem?_map] at hs
    obtain ⟨⟨other, _⟩, ho, rfl⟩ := Option.map_eq_some_iff.1 hs
    exact ⟨other, ho⟩
  obtain ⟨_, hf⟩ := found hd h.found
  obtain ⟨_, hf'⟩ := found hd.symm h'.found
  exact Nat.le_antisymm (h'.le_of_isEdge hf h.isEdge) (h.le_of_isEdge hf' h'.isEdge)

end

namespace Session

section
variable {pick : List Nat → Nat} {opened : Session} {slot : Nat} {name entityId : String} {bus : Bus}
  {p : Option EntityState → Bool} {d : Nat} {actions : List Action} {visits : List Visit}
  {entry : BusSlot} {published : List StateChange} {read : Nat} {limit : Option Nat}
  {change : StateChange}

theorem log_prefix_performAll {later : BusSlot} {rest : List Action}
    (h : (opened.performAll pick actions).slots[slot]? = some entry)
    (hl : (opened.performAll pick (actions ++ rest)).slots[slot]? = some later) :
    entry.bus.log <+: later.bus.log := by
  obtain ⟨next, hn, hp⟩ := grows_performAll pick _ rest slot entry h
  rw [← performAll_append, hl] at hn
  obtain rfl := Option.some.inj hn
  exact hp.log

-- ---------------------------------------------------------------------------
-- Items of a held stream
-- ---------------------------------------------------------------------------

/-- A poll that gives a change: the visit it pays, and the last edge that the visit finds. -/
structure Emits (pick : List Nat → Nat) (opened : Session) (slot : Nat) (name entityId : String)
    (bus : Bus) (p : Option EntityState → Bool) (d : Nat) (actions : List Action)
    (limit : Option Nat) (change : StateChange) (visits : List Visit) (visit : Visit)
    (entry : BusSlot) (published : List StateChange) (place taken : Nat) : Prop where
  holds : Holds pick opened slot name entityId bus p d (actions ++ [.poll name limit])
    (visits ++ [visit]) entry published published.length
  now : visit.now = (opened.performAll pick actions).clock
  alone : gave name (.poll name limit)
    ((opened.performAll pick actions).perform pick (.poll name limit)).1 = [.ok change]
  answer : (((Hold.ofPredicate p d).after visits).visit visit).1 = .item (.ok change)
  edge : LastEdge p (Visit.drained (visits ++ [visit])) place taken change
  true_new : p change.new = true
  due : taken + d ≤ (opened.performAll pick actions).clock
  fresh : ¬ Hold.Returned p d visits place
  slots : (opened.performAll pick actions).slots[slot]? = some entry

theorem Holds.emits
    (h : Holds pick opened slot name entityId bus p d actions visits entry published read)
    (hm : .ok change ∈ gave name (.poll name limit)
      ((opened.performAll pick actions).perform pick (.poll name limit)).1) :
    ∃ visit place taken, Emits pick opened slot name entityId bus p d actions limit change visits visit
      entry published place taken := by
  by_cases hlimit : limit = some 0
  · subst hlimit
    rw [h.perform_poll_zero.1, gave_poll] at hm
    simp at hm
  by_cases hl : entry.bus.lost (bus.log.length + read) = 0
  · obtain ⟨⟨status, hp⟩, hnext⟩ := h.perform_poll hlimit hl
    rw [hp, gave_poll] at hm
    have ha := Answer.change?_of_mem_items hm
    have hr := Hold.response_of_ordered (p := p) (d := d) hnext.ordered
    obtain ⟨-, place, taken, hedge, htrue, hdue, hfresh⟩ := hr.item_iff.1 ha
    exact ⟨_, place, taken, hnext, rfl, by rw [hp, gave_poll, ha]; rfl, ha, hedge, htrue, hdue, hfresh, h.found⟩
  · obtain ⟨error, status, hp, -⟩ := h.perform_poll_lagged hlimit hl
    rw [hp, gave_poll] at hm
    simp at hm

namespace Emits

variable {visit : Visit} {place taken : Nat}
  (h : Emits pick opened slot name entityId bus p d actions limit change visits visit entry published
    place taken)
include h

theorem drained : (Visit.drained (visits ++ [visit])).map Prod.snd = ownChanges entityId published := by
  rw [h.holds.drained, List.take_length]

theorem false_old : p change.old = false := by
  have he := h.edge.isEdge
  rw [IsEdge, h.true_new] at he
  simpa using he

end Emits

/-- A change in the log that a held stream has given after actions was held on the bus until then: the
predicate was false before it and true of all the bus has cached for the entity since, and the reader
had passed the change for the time that it has to be held. -/
structure HeldOnBus (pick : List Nat → Nat) (opened : Session) (slot : Nat) (name entityId : String)
    (p : Option EntityState → Bool) (d : Nat) (actions : List Action) (limit : Option Nat)
    (entry : BusSlot) (place : Nat) (change : StateChange) : Prop where
  written : entry.bus.log[place]? = some change
  own : change.entityId = entityId
  before : p change.old = false
  cached : ∀ earlier between, earlier <+: actions →
    (opened.performAll pick earlier).slots[slot]? = some between → place < between.bus.log.length →
      p (between.bus.currentState entityId) = true
  drained : ∃ earlier cursor, earlier <+: actions ++ [.poll name limit] ∧
    (opened.performAll pick earlier).Reaches slot name entityId cursor ∧ place < cursor ∧
    (opened.performAll pick earlier).clock + d ≤ (opened.performAll pick actions).clock

theorem Emits.heldOnBus {visit : Visit} {place taken : Nat} {front back : List StateChange}
    (h : Emits pick opened slot name entityId bus p d actions limit change visits visit entry published
      place taken)
    {first : BusSlot} (hfirst : opened.slots[slot]? = some first) (hleads : bus.Leads [] first.bus)
    (hp : published = front ++ change :: back) (hown : change.entityId = entityId)
    (hplace : (ownChanges entityId front).length = place)
    (hplain : ∀ other ∈ back, other.entityId = entityId → ¬ IsEdge p other) :
    HeldOnBus pick opened slot name entityId p d actions limit entry (bus.log.length + front.length)
      change where
  written := (hp ▸ h.holds.leads).getElem?_log
  own := hown
  before := h.false_old
  cached := by
    rintro earlier between ⟨rest, rfl⟩ hb hlt
    -- what was published by then reaches behind the change
    obtain ⟨other, ho, commands, hc⟩ := grows_performAll pick opened earlier slot first hfirst
    obtain rfl := Option.some.inj (ho.symm.trans hb)
    obtain ⟨more, hm⟩ := hleads.performAll commands
    rw [List.nil_append, hc] at hm
    have hprefix : more <+: front ++ change :: back := by
      have hlog := log_prefix_performAll hb h.slots
      rwa [hm.log, h.holds.leads.log, hp, List.prefix_append_right_inj] at hlog
    have hlength : (front ++ [change]).length ≤ more.length := by
      rw [hm.log, List.length_append] at hlt
      simp
      omega
    have hfront : front ++ [change] <+: more :=
      List.prefix_of_prefix_length_le ⟨back, by simp⟩ hprefix hlength
    obtain ⟨later, rfl⟩ := hfront
    rw [List.append_assoc, List.singleton_append] at hm hprefix
    have hlater : later <+: back := by
      simpa [List.prefix_append_right_inj, List.cons_prefix_cons] using hprefix
    rw [hm.currentState entityId]
    exact Bus.Leads.stays (hp ▸ h.holds.leads) hown h.true_new hplain hlater
  drained := by
    obtain ⟨earlier, passed, he, -, hlt, hclock, hreaches⟩ := h.holds.taken _ _ _ h.edge.found
    refine ⟨earlier, bus.log.length + passed, he, hreaches, ?_, hclock ▸ h.due⟩
    -- a shorter stretch has no more changes of the entity than stand in front
    by_contra hle
    have hsub : (ownChanges entityId (published.take passed)).length ≤ (ownChanges entityId front).length := by
      rw [hp, List.take_append_of_le_length (by omega)]
      exact ((List.take_sublist _ _).filter _).length_le
    omega

theorem Emits.apart {visit : Visit} {place taken : Nat}
    (h : Emits pick opened slot name entityId bus p d actions limit change visits visit entry published
      place taken)
    {actions' : List Action} {limit' : Option Nat} {change' : StateChange} {more : List Visit}
    {visit' : Visit} {entry' : BusSlot} {published' : List StateChange} {place' taken' : Nat}
    (h' : Emits pick opened slot name entityId bus p d actions' limit' change' (visits ++ [visit] ++ more)
      visit' entry' published' place' taken') :
    (opened.performAll pick actions).clock + d ≤ (opened.performAll pick actions').clock ∧
      place < place' := by
  have hsplit : Visit.drained (visits ++ [visit] ++ more ++ [visit']) =
      Visit.drained (visits ++ [visit]) ++ Visit.drained (more ++ [visit']) := by
    rw [List.append_assoc _ more, Visit.drained_append_of_waiting h.holds.waiting]
  have hfound : (Visit.drained (visits ++ [visit] ++ more ++ [visit']))[place]? = some (taken, change) := by
    rw [hsplit, List.getElem?_append_left (List.getElem?_eq_some_iff.1 h.edge.found).1, h.edge.found]
  have hlt : place < place' := by
    refine Nat.lt_of_le_of_ne (h'.edge.le_of_isEdge hfound h.edge.isEdge) fun heq => h'.fresh ?_
    exact heq ▸ ⟨visits, visit, taken, change, List.prefix_append _ _, h.answer, h.edge⟩
  -- an edge behind the last one of the first poll is drained by a later one
  have hnew : (Visit.drained (visits ++ [visit])).length ≤ place' := by
    by_contra hlen
    have hf := h'.edge.found
    rw [hsplit, List.getElem?_append_left (by omega)] at hf
    exact h.edge.last place' _ hlt hf h'.edge.isEdge
  have hf := h'.edge.found
  rw [hsplit, List.getElem?_append_right hnew] at hf
  obtain ⟨other, ho, rfl⟩ := Visit.exists_of_mem_drained (List.mem_of_getElem? hf)
  have htime : visit.now ≤ other.now := by
    have hordered := h'.holds.ordered
    rw [List.append_assoc _ more] at hordered
    exact (List.pairwise_append.1 hordered).2.2 visit (by simp) other ho
  have hnow := h.now
  have hdue := h'.due
  exact ⟨by omega, hlt⟩

end

/-- When a poll of the held stream of an entity gives a change, it gives nothing else, and the change was
held on the bus. Compared with any change that an earlier poll has given, it comes no sooner than the
time to be held, and between the two changes there is one that made the predicate false. -/
theorem held_on_bus (pick : List Nat → Nat) (session : Session) {slot : Nat} {bus : Bus}
    (h : session.bus? slot = some bus) (name entityId : String) (p : Option EntityState → Bool) (d : Nat)
    (actions : List Action) (keeps : ∀ action ∈ actions, action.Keeps name) (limit : Option Nat)
    (change : StateChange) :
    let opened := (session.perform pick (.subscribe name (.held (fun _ => p) d (.entity slot entityId)))).2
    let given := fun (actions : List Action) (limit : Option Nat) => gave name (.poll name limit)
      ((opened.performAll pick actions).perform pick (.poll name limit)).1
    .ok change ∈ given actions limit →
      given actions limit = [.ok change] ∧
      ∃ entry place, (opened.performAll pick actions).slots[slot]? = some entry ∧
        bus.log.length ≤ place ∧
        HeldOnBus pick opened slot name entityId p d actions limit entry place change ∧
        ∀ before limit' after change', actions = before ++ .poll name limit' :: after →
          .ok change' ∈ given before limit' →
          (opened.performAll pick before).clock + d ≤ (opened.performAll pick actions).clock ∧
          ∃ entry' first, (opened.performAll pick before).slots[slot]? = some entry' ∧
            HeldOnBus pick opened slot name entityId p d before limit' entry' first change' ∧
            ∃ middle write, first < middle ∧ middle < place ∧
              entry.bus.log[middle]? = some write ∧ write.entityId = entityId ∧
              p write.old = true ∧ p write.new = false := by
  intro opened given hm
  obtain ⟨first, hopened⟩ := holds_subscribe pick h name entityId p d
  have hover {actions : List Action} {limit : Option Nat} {change : StateChange}
      (hm : .ok change ∈ given actions limit) : ¬ (opened.performAll pick actions).IsOver name := by
    intro hend
    have hkeeps : (Action.poll name limit).Keeps name := trivial
    have hnone : given actions limit = [] := (hend.perform pick hkeeps).1
    rw [hnone] at hm
    simp at hm
  have hheld {actions : List Action} (keeps : ∀ action ∈ actions, action.Keeps name)
      {limit : Option Nat} {change : StateChange} (hm : .ok change ∈ given actions limit) :
      GoesOn pick opened slot name entityId bus p d actions [] :=
    (hopened.performAll keeps).resolve_right (hover hm)
  obtain ⟨visits, entry, published, read, hholds⟩ := hheld keeps hm
  obtain ⟨visit, place, taken, hemits⟩ := hholds.emits hm
  obtain ⟨front, back, rfl, hown, hplace, hplain⟩ := hemits.edge.exists_eq_append hemits.drained
  refine ⟨hemits.alone, entry, bus.log.length + front.length, hemits.slots, Nat.le_add_right _ _,
    hemits.heldOnBus hopened.found hopened.leads rfl hown hplace hplain, ?_⟩
  rintro before limit' after change' rfl hm'
  -- the visits up to the later poll go on from those up to the earlier one
  obtain ⟨hbefore, hafter⟩ := List.forall_mem_append.1 keeps
  obtain ⟨visits', entry', published', read', hholds'⟩ := hheld hbefore hm'
  obtain ⟨visit', place', taken', hemits'⟩ := hholds'.emits hm'
  obtain ⟨front', back', rfl, hown', hplace', hplain'⟩ := hemits'.edge.exists_eq_append hemits'.drained
  have hlog := log_prefix_performAll hemits'.slots hemits.slots
  rw [hemits'.holds.leads.log, hemits.holds.leads.log, List.prefix_append_right_inj] at hlog
  rw [List.append_cons] at hm hemits ⊢
  obtain ⟨more, later, all, passed, hlater⟩ :=
    (hemits'.holds.performAll (List.forall_mem_cons.1 hafter).2).resolve_right (hover hm)
  obtain ⟨last, index, time, hlast⟩ := hlater.emits hm
  obtain ⟨htime, hlt⟩ := hemits'.apart hlast
  obtain rfl := Option.some.inj (hlast.slots.symm.trans hemits.slots)
  obtain rfl : all = front ++ change :: back :=
    List.append_cancel_left (hlast.holds.leads.log.symm.trans hemits.holds.leads.log)
  have hplaces := hlast.edge.place_eq hemits.edge (hlast.drained.trans hemits.drained.symm)
  have hfirst : front' ++ [change'] <+: front ++ change :: back :=
    List.IsPrefix.trans ⟨back', by simp⟩ hlog
  have hmore : (ownChanges entityId front').length < (ownChanges entityId front).length := by omega
  obtain ⟨between, rfl⟩ := exists_eq_append_cons hfirst (List.prefix_append _ _) hmore
  have hleads := hemits.holds.leads
  rw [List.append_assoc, List.cons_append] at hleads
  obtain ⟨middle, write, hafter, hbefore, hw⟩ :=
    hleads.exists_false hown' hemits'.true_new hown hemits.false_old
  exact ⟨htime, entry', _, hemits'.slots,
    hemits'.heldOnBus hopened.found hopened.leads rfl hown' hplace' hplain', middle, write, hafter,
    hbefore, hw⟩

def isOn (state : Option EntityState) : Bool :=
  state.any (·.state == some "on")

def switched (text : String) : List Action :=
  [.setState 0 0 (flickering text), .poll "held" none, .advance 5]

theorem held_on_bus_lamp :
    let opened := ((ofBuses [tightBus]).perform (fun _ => 0)
      (.subscribe "held" (.held (fun _ => isOn) 5 (.entity 0 "light.a")))).2
    let actions := switched "on" ++ .poll "held" none :: (switched "off" ++ switched "on")
    let change := (tightBus.performAll
      [.set 0 (flickering "on"), .set 0 (flickering "off")]).writing 0 (flickering "on")
    (ofBuses [tightBus]).bus? 0 = some tightBus ∧ (∀ action ∈ actions, action.Keeps "held") ∧
      ∃ entry place middle write,
        HeldOnBus (fun _ => 0) opened 0 "held" "light.a" isOn 5 actions none entry place change ∧
        middle < place ∧ entry.bus.log[middle]? = some write ∧ isOn write.old = true ∧
        isOn write.new = false := by
  intro opened actions change
  have found : (ofBuses [tightBus]).bus? 0 = some tightBus := rfl
  have keeps : ∀ action ∈ actions, action.Keeps "held" := by
    simp [actions, switched, Action.Keeps]
  refine ⟨found, keeps, ?_⟩
  obtain ⟨-, entry, place, -, -, held, apart⟩ := held_on_bus (fun _ => 0) _ found "held" "light.a" isOn 5
    actions keeps none change (List.mem_singleton.2 rfl)
  obtain ⟨-, _, _, -, -, middle, write, -, hlt, hw, -, hold, hnew⟩ := apart (switched "on") none
    (switched "off" ++ switched "on") (tightBus.writing 0 (flickering "on")) rfl (List.mem_singleton.2 rfl)
  exact ⟨entry, place, middle, write, held, hlt, hw, hold, hnew⟩

end Session

end HomeHub
