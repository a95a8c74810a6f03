import HomeHub.Proofs.Lists
import HomeHub.Proofs.Sorted
import HomeHub.Proofs.Success
import HomeHub.Session.Basic

/-!
# Bulk calls

A service that is called for many handles is refused as a whole, before any bus is called, or the
buses of the handles are called one after the other, each of them once, up to the first that refuses
its call.
-/

namespace HomeHub

-- ---------------------------------------------------------------------------
-- Names of services
-- ---------------------------------------------------------------------------

section
variable {service name : String} (entityId : String)

theorem resolveService_empty (h : (EntityId.split service).2 = "") :
    resolveService entityId service = .error .emptyServiceName := by
  simp [resolveService, h]

theorem resolveService_qualified {domain : String}
    (h : EntityId.split service = (some domain, name)) (hn : name ≠ "") :
    resolveService entityId service = .ok (domain, name) := by
  simp [resolveService, h, hn]

theorem resolveService_bare {domain : String} (h : EntityId.split service = (none, name))
    (hn : name ≠ "") (hd : EntityId.domain? entityId = some domain) :
    resolveService entityId service = .ok (domain, name) := by
  simp [resolveService, h, hn, hd]

theorem resolveService_missing (h : EntityId.split service = (none, name)) (hn : name ≠ "")
    (hd : EntityId.domain? entityId = none) :
    resolveService entityId service = .error (.missingDomain entityId name) := by
  simp [resolveService, h, hn, hd]

end

namespace Handle

variable {handles : List Handle} {service domain name : String} {data : Option Json.Value}

theorem mapM_resolveService (h : EntityId.split service = (none, name)) (hn : name ≠ "")
    (hd : ∀ handle ∈ handles, handle.domain? ≠ none) :
    handles.mapM (fun handle => (resolveService handle.entityId service).map (·.1)) =
      .ok (handles.filterMap domain?) := by
  have hone : ∀ handle : Handle, ∀ domain : String,
      (resolveService handle.entityId service).map (·.1) = .ok domain ↔
        handle.domain? = some domain := by
    intro handle domain
    unfold domain?
    cases hdomain : EntityId.domain? handle.entityId with
    | none => simp [resolveService_missing _ h hn hdomain, Except.map]
    | some found => simp [resolveService_bare _ h hn hdomain, Except.map]
  obtain ⟨domains, hs⟩ := exists_mapM_ok.2 fun handle hm =>
    (Option.ne_none_iff_exists'.1 (hd handle hm)).imp fun domain hdomain =>
      (hone handle domain).2 hdomain
  have hdomains : domains.filterMap some = handles.filterMap domain? :=
    filterMap_of_mapM_eq_ok hs fun handle domain hh => ((hone handle domain).1 hh).symm
  rw [hs, ← hdomains, List.filterMap_some]

theorem checkDomains_missing {front : List Handle} (back : List Handle) {handle : Handle}
    (h : EntityId.split service = (none, name)) (hn : name ≠ "")
    (hf : ∀ other ∈ front, other.domain? ≠ none) (hh : handle.domain? = none) :
    checkDomains (front ++ handle :: back) service =
      .error (.missingDomain handle.entityId name) := by
  have hhandle : (resolveService handle.entityId service).map (·.1) =
      .error (.missingDomain handle.entityId name) := by
    rw [resolveService_missing _ h hn hh]
    rfl
  unfold checkDomains
  rw [List.mapM_append, mapM_resolveService h hn hf, List.mapM_cons, hhandle]
  rfl

theorem checkDomains_eq (h : EntityId.split service = (none, name)) (hn : name ≠ "")
    (hd : ∀ handle ∈ handles, handle.domain? ≠ none) :
    checkDomains handles service =
      if (Text.ascending (handles.filterMap domain?)).length ≤ 1 then .ok ()
      else .error (.mixedDomains service (Text.ascending (handles.filterMap domain?))) := by
  unfold checkDomains
  rw [mapM_resolveService h hn hd]
  simp only [bind, Except.bind]
  generalize Text.ascending (handles.filterMap domain?) = domains
  match domains with
  | [] => rfl
  | [_] => rfl
  | _ :: _ :: _ => rfl

theorem checkDomains_mixed (h : EntityId.split service = (none, name)) (hn : name ≠ "")
    (hd : ∀ handle ∈ handles, handle.domain? ≠ none) {first second : Handle} (hf : first ∈ handles)
    (hs : second ∈ handles) (hne : first.domain? ≠ second.domain?) :
    checkDomains handles service =
      .error (.mixedDomains service (Text.ascending (handles.filterMap domain?))) := by
  have hmem : ∀ handle ∈ handles, ∃ domain ∈ Text.ascending (handles.filterMap domain?),
      handle.domain? = some domain := by
    intro handle hm
    obtain ⟨domain, hdomain⟩ := Option.ne_none_iff_exists'.1 (hd handle hm)
    exact ⟨domain, Text.mem_ascending.2 (List.mem_filterMap.2 ⟨handle, hm, hdomain⟩), hdomain⟩
  obtain ⟨one, hone, hfirst⟩ := hmem first hf
  obtain ⟨other, hother, hsecond⟩ := hmem second hs
  rw [checkDomains_eq h hn hd, if_neg]
  intro hlength
  -- a list that is no longer than one has no two different members
  obtain ⟨only, honly⟩ := List.length_eq_one_iff.1
    (Nat.le_antisymm hlength (List.length_pos_of_mem hone))
  rw [honly, List.mem_singleton] at hone hother
  exact hne (by rw [hfirst, hsecond, hone, hother])

theorem checkDomains_same (h : EntityId.split service = (none, name)) (hn : name ≠ "")
    (hd : ∀ handle ∈ handles, handle.domain? = some domain) :
    checkDomains handles service = .ok () := by
  have hsome : ∀ handle ∈ handles, handle.domain? ≠ none := by
    intro handle hm
    simp [hd handle hm]
  have hsub : Text.ascending (handles.filterMap domain?) ⊆ [domain] := by
    intro other hm
    obtain ⟨handle, hh, ho⟩ := List.mem_filterMap.1 (Text.mem_ascending.1 hm)
    exact List.mem_singleton.2 (Option.some.inj (ho.symm.trans (hd handle hh)))
  have hlength := (List.subperm_of_subset (Text.nodup_ascending _) hsub).length_le
  exact (checkDomains_eq h hn hsome).trans (if_pos hlength)

-- ---------------------------------------------------------------------------
-- One call for every bus
-- ---------------------------------------------------------------------------

/-- The call for the handles with the id of one bus: it goes to the bus that the first of them is on
and names all of them, in order. -/
structure IsCallFor (handles : List Handle) (domain name : String) (data : Option Json.Value)
    (id : BusId) (delivery : Delivery) : Prop where
  bus : (handles.find? (·.busId == id)).map Handle.bus = some delivery.bus
  call : delivery.call =
    ⟨domain, name, .entities ((handles.filter (·.busId == id)).map Handle.entityId), data⟩

structure IsPlan (handles : List Handle) (domain name : String) (data : Option Json.Value)
    (ids : List BusId) (deliveries : List Delivery) : Prop where
  ascending : ids.Pairwise fun first second => first.value < second.value
  covers : ∀ id, id ∈ ids ↔ ∃ handle ∈ handles, handle.busId = id
  calls : List.Forall₂ (IsCallFor handles domain name data) ids deliveries
  targets : (deliveries.flatMap fun delivery => delivery.call.target.entityIds).Perm
    (handles.map Handle.entityId)

theorem mem_busIds {id : BusId} : id ∈ busIds handles ↔ ∃ handle ∈ handles, handle.busId = id := by
  rw [busIds, BusId.mem_ascending, List.mem_map]

theorem isCallFor_deliveryTo {id : BusId} (h : id ∈ busIds handles) :
    ∃ delivery, deliveryTo handles domain name data id = some delivery ∧
      IsCallFor handles domain name data id delivery := by
  obtain ⟨handle, hm, rfl⟩ := mem_busIds.1 h
  have hmem : handle ∈ handles.filter (·.busId == handle.busId) := by simp [hm]
  unfold deliveryTo
  cases hf : handles.filter (·.busId == handle.busId) with
  | nil => simp [hf] at hmem
  | cons first rest =>
    refine ⟨_, rfl, ?_, ?_⟩
    · simp [← List.head?_filter, hf]
    · simp [hf]

theorem targets_of_calls {ids : List BusId} {deliveries : List Delivery}
    (h : List.Forall₂ (IsCallFor handles domain name data) ids deliveries) :
    deliveries.flatMap (fun delivery => delivery.call.target.entityIds) =
      (ids.flatMap fun id => handles.filter (·.busId == id)).map Handle.entityId := by
  induction h with
  | nil => rfl
  | cons hc _ ih =>
    rw [List.flatMap_cons, List.flatMap_cons, List.map_append, ih, hc.call]
    rfl

theorem isPlan_filterMap_deliveryTo :
    IsPlan handles domain name data (busIds handles)
      ((busIds handles).filterMap (deliveryTo handles domain name data)) := by
  have hcalls : List.Forall₂ (IsCallFor handles domain name data) (busIds handles)
      ((busIds handles).filterMap (deliveryTo handles domain name data)) :=
    forall₂_filterMap fun id hm => isCallFor_deliveryTo hm
  refine ⟨BusId.pairwise_ascending _, fun id => mem_busIds, hcalls, ?_⟩
  rw [targets_of_calls hcalls]
  exact (flatMap_filter_perm (BusId.nodup_ascending _) fun handle hm =>
    mem_busIds.2 ⟨handle, hm, rfl⟩).map _

theorem deliveries_empty (hne : handles ≠ []) (h : (EntityId.split service).2 = "") :
    deliveries handles service data = .error .emptyServiceName := by
  obtain ⟨first, rest, rfl⟩ := List.exists_cons_of_ne_nil hne
  simp only [deliveries, resolveService_empty _ h]
  rfl

theorem deliveries_bare {first : Handle} (rest : List Handle)
    (h : EntityId.split service = (none, name)) (hn : name ≠ "")
    (hd : first.domain? = some domain) :
    deliveries (first :: rest) service data = (checkDomains (first :: rest) service).map fun _ =>
      (busIds (first :: rest)).filterMap (deliveryTo (first :: rest) domain name data) := by
  have hservice : EntityId.domain? service = none := congrArg Prod.fst h
  simp only [deliveries, resolveService_bare _ h hn hd, hservice]
  cases checkDomains (first :: rest) service <;> rfl

theorem deliveries_missing (h : EntityId.split service = (none, name)) (hn : name ≠ "")
    {front back : List Handle} {handle : Handle} (hf : ∀ other ∈ front, other.domain? ≠ none)
    (hh : handle.domain? = none) :
    deliveries (front ++ handle :: back) service data =
      .error (.missingDomain handle.entityId name) := by
  cases front with
  | nil =>
    simp only [List.nil_append, deliveries, resolveService_missing _ h hn hh]
    rfl
  | cons first front =>
    obtain ⟨domain, hfirst⟩ := Option.ne_none_iff_exists'.1 (hf first (by simp))
    have hchecked := checkDomains_missing back h hn hf hh
    rw [List.cons_append] at hchecked ⊢
    rw [deliveries_bare _ h hn hfirst, hchecked, Except.map]

theorem deliveries_mixed (h : EntityId.split service = (none, name)) (hn : name ≠ "")
    (hd : ∀ handle ∈ handles, handle.domain? ≠ none) {first second : Handle} (hf : first ∈ handles)
    (hs : second ∈ handles) (hne : first.domain? ≠ second.domain?) :
    deliveries handles service data =
      .error (.mixedDomains service (Text.ascending (handles.filterMap domain?))) := by
  have hchecked := checkDomains_mixed h hn hd hf hs hne
  obtain ⟨front, rest, rfl⟩ := List.exists_cons_of_ne_nil (List.ne_nil_of_mem hf)
  obtain ⟨domain, hdomain⟩ := Option.ne_none_iff_exists'.1 (hd front (by simp))
  rw [deliveries_bare _ h hn hdomain, hchecked, Except.map]

theorem deliveries_eq (hne : handles ≠ []) (hn : name ≠ "")
    (h : EntityId.split service = (some domain, name) ∨
      EntityId.split service = (none, name) ∧ ∀ handle ∈ handles, handle.domain? = some domain) :
    deliveries handles service data =
      .ok ((busIds handles).filterMap (deliveryTo handles domain name data)) := by
  obtain ⟨first, rest, rfl⟩ := List.exists_cons_of_ne_nil hne
  rcases h with h | ⟨h, hd⟩
  · have hservice : EntityId.domain? service = some domain := congrArg Prod.fst h
    simp only [deliveries, resolveService_qualified _ h hn, hservice]
    rfl
  · rw [deliveries_bare _ h hn (hd first (by simp)), checkDomains_same h hn hd, Except.map]

end Handle

-- ---------------------------------------------------------------------------
-- Calls on buses
-- ---------------------------------------------------------------------------

namespace Session

def refusal? (session : Session) (slot : Nat) : Option HubError :=
  session.slots[slot]?.bind BusSlot.refusal

/-- All that deliveries have changed of a session: the call of each stands behind those that its bus
had received. -/
structure Records (session : Session) (served : List Delivery) (later : Session) : Prop where
  recorded : ∀ delivery ∈ served, ∃ entry, session.slots[delivery.bus]? = some entry ∧
    later.slots[delivery.bus]? = some { entry with
      bus := { entry.bus with calls := entry.bus.calls ++ [delivery.call] } }
  others : ∀ slot, (∀ delivery ∈ served, delivery.bus ≠ slot) →
    later.slots[slot]? = session.slots[slot]?
  callOrder : later.callOrder = session.callOrder ++ served.map Delivery.bus
  clock : later.clock = session.clock
  streams : later.streams = session.streams

inductive Serves (session : Session) (deliveries : List Delivery) :
    Except HubError Unit × Session → Prop where
  | all {later : Session} (ha : ∀ delivery ∈ deliveries, session.refusal? delivery.bus = none)
      (hr : session.Records deliveries later) : Serves session deliveries (.ok (), later)
  | upTo {served rest : List Delivery} {refused : Delivery} {error : HubError} {later : Session}
      (hd : deliveries = served ++ refused :: rest)
      (ha : ∀ delivery ∈ served, session.refusal? delivery.bus = none)
      (hf : session.refusal? refused.bus = some error)
      (hr : session.Records served later) : Serves session deliveries (.error error, later)

section
variable {session next later : Session} {delivery : Delivery} {served rest : List Delivery}
  {result : Except HubError Unit × Session}

theorem Records.refl (session : Session) : session.Records [] session :=
  ⟨by simp, fun _ _ => rfl, by simp, rfl, rfl⟩

theorem Records.cons (h : session.Records [delivery] next) (h' : next.Records served later)
    (hne : ∀ other ∈ served, other.bus ≠ delivery.bus) :
    session.Records (delivery :: served) later := by
  refine ⟨List.forall_mem_cons.2 ⟨?_, fun other hm => ?_⟩, fun slot hs => ?_, ?_,
    h'.clock.trans h.clock, h'.streams.trans h.streams⟩
  · obtain ⟨entry, he, hn⟩ := h.recorded delivery (by simp)
    exact ⟨entry, he, (h'.others _ hne).trans hn⟩
  · obtain ⟨entry, he, hl⟩ := h'.recorded other hm
    have hold := h.others other.bus (by simpa using (hne other hm).symm)
    exact ⟨entry, hold.symm.trans he, hl⟩
  · obtain ⟨hd, hs⟩ := List.forall_mem_cons.1 hs
    exact (h'.others slot hs).trans (h.others slot (by simpa using hd))
  · simp [h'.callOrder, h.callOrder]

/-- A bus refuses calls after others as it did before. -/
theorem Records.refusal? (h : session.Records served later) (slot : Nat) :
    later.refusal? slot = session.refusal? slot := by
  by_cases hs : ∀ delivery ∈ served, delivery.bus ≠ slot
  · rw [Session.refusal?, h.others slot hs, Session.refusal?]
  · obtain ⟨delivery, hm, rfl⟩ : ∃ delivery ∈ served, delivery.bus = slot := by
      simpa using hs
    obtain ⟨entry, he, hl⟩ := h.recorded delivery hm
    rw [Session.refusal?, Session.refusal?, hl, he]
    rfl

theorem Serves.cons (h : session.Records [delivery] next)
    (ha : session.refusal? delivery.bus = none) (hne : ∀ other ∈ rest, other.bus ≠ delivery.bus)
    (hs : next.Serves rest result) : session.Serves (delivery :: rest) result := by
  cases hs with
  | all hrest hr =>
    refine .all (List.forall_mem_cons.2 ⟨ha, fun other hm => ?_⟩) (h.cons hr hne)
    rw [← h.refusal?, hrest other hm]
  | @upTo served rest refused error later hd hserved hf hr =>
    subst hd
    refine .upTo (List.cons_append ..).symm (List.forall_mem_cons.2 ⟨ha, fun other hm => ?_⟩)
      ((h.refusal? _).symm.trans hf) (h.cons hr fun other hm => hne other (by simp [hm]))
    rw [← h.refusal?, hserved other hm]

theorem deliver_of_refusal {error : HubError} (h : session.refusal? delivery.bus = some error) :
    session.deliver delivery = .error error := by
  obtain ⟨entry, he, hr⟩ := Option.bind_eq_some_iff.1 h
  simp [deliver, he, hr]

theorem deliver_of_refusal_none {entry : BusSlot} (he : session.slots[delivery.bus]? = some entry)
    (h : session.refusal? delivery.bus = none) :
    ∃ later, session.deliver delivery = .ok later ∧ session.Records [delivery] later := by
  have hr : entry.refusal = none := by simpa [refusal?, he] using h
  have hd : session.deliver delivery = .ok
      { session.putBus delivery.bus (entry.bus.record delivery.call) with
        callOrder := session.callOrder ++ [delivery.bus] } := by
    simp only [deliver, he, hr]
    rfl
  refine ⟨_, hd, ?_, ?_, rfl, rfl, rfl⟩
  · simp [putBus, changeSlot, he, Bus.record]
  · intro slot hs
    have hne : delivery.bus ≠ slot := by simpa using hs
    simp [putBus, changeSlot, hne]

theorem serves_deliverAll {deliveries : List Delivery} (session : Session)
    (hn : (deliveries.map Delivery.bus).Nodup)
    (hb : ∀ delivery ∈ deliveries, ∃ entry, session.slots[delivery.bus]? = some entry) :
    session.Serves deliveries (session.deliverAll deliveries) := by
  induction deliveries generalizing session with
  | nil => exact .all (by simp) (.refl session)
  | cons delivery rest ih =>
    obtain ⟨⟨entry, he⟩, hrest⟩ := List.forall_mem_cons.1 hb
    obtain ⟨hd, hn⟩ := List.nodup_cons.1 hn
    have hne : ∀ other ∈ rest, other.bus ≠ delivery.bus := fun other hm heq =>
      hd (heq ▸ List.mem_map_of_mem hm)
    unfold deliverAll
    cases hr : session.refusal? delivery.bus with
    | some error =>
      rw [deliver_of_refusal hr]
      exact .upTo (List.nil_append _).symm (by simp) hr (.refl session)
    | none =>
      obtain ⟨next, hnext, hrecords⟩ := deliver_of_refusal_none he hr
      rw [hnext]
      -- the other buses are as they were, so the rest is served as if it came first
      refine .cons hrecords hr hne (ih next hn fun other hm => ?_)
      rw [hrecords.others other.bus (by simpa using (hne other hm).symm)]
      exact hrest other hm

end

end Session

def Handle.IsOn (handle : Handle) (session : Session) : Prop :=
  session.slots[handle.bus]?.map (·.bus.id) = some handle.busId

instance (handle : Handle) (session : Session) : Decidable (handle.IsOn session) :=
  inferInstanceAs (Decidable (_ = _))

namespace Session

variable {session : Session} {handles : List Handle} {service domain name : String}
  {data : Option Json.Value}

theorem isOn_of_handles?_eq_some {members : List (Nat × String)}
    (h : session.handles? members = some handles) : ∀ handle ∈ handles, handle.IsOn session := by
  induction members generalizing handles with
  | nil =>
    obtain rfl := Option.some.inj h
    simp
  | cons member rest ih =>
    rw [handles?, List.mapM_cons] at h
    obtain ⟨handle, hh, h⟩ := Option.bind_eq_some_iff.1 h
    obtain ⟨others, ho, h⟩ := Option.bind_eq_some_iff.1 h
    obtain rfl := Option.some.inj h
    refine List.forall_mem_cons.2 ⟨?_, ih ho⟩
    obtain ⟨bus, hb, rfl⟩ := Option.map_eq_some_iff.1 hh
    obtain ⟨entry, he, -, rfl⟩ := bus?_eq_some hb
    exact congrArg (Option.map (·.bus.id)) he

theorem map_busId_of_isPlan {ids : List BusId} {deliveries : List Delivery}
    (h : Handle.IsPlan handles domain name data ids deliveries)
    (hon : ∀ handle ∈ handles, handle.IsOn session) :
    deliveries.map (fun delivery => session.slots[delivery.bus]?.map (·.bus.id)) =
      ids.map some := by
  have hcalls := h.calls
  clear h
  induction hcalls with
  | nil => rfl
  | @cons id delivery _ _ hc _ ih =>
    obtain ⟨handle, hf, hbus⟩ := Option.map_eq_some_iff.1 hc.bus
    have hid : handle.busId = id := by simpa using List.find?_some hf
    have hslot := hon handle (List.mem_of_find?_eq_some hf)
    rw [List.map_cons, List.map_cons, ih, ← hbus, hslot, hid]

theorem serves_of_isPlan {ids : List BusId} {deliveries : List Delivery}
    (h : Handle.IsPlan handles domain name data ids deliveries)
    (hon : ∀ handle ∈ handles, handle.IsOn session) :
    session.Serves deliveries (session.deliverAll deliveries) := by
  have hids := map_busId_of_isPlan h hon
  have hnodup : (ids.map some).Nodup := by
    refine List.pairwise_map.2 (h.ascending.imp fun hlt heq => ?_)
    obtain rfl := Option.some.inj heq
    exact BitVec.lt_irrefl _ hlt
  rw [← hids] at hnodup
  refine session.serves_deliverAll ?_ fun delivery hm => ?_
  · exact List.pairwise_map.2 ((List.pairwise_map.1 hnodup).imp fun hne heq => hne (by rw [heq]))
  · have hsome := hids ▸ List.mem_map_of_mem hm
    obtain ⟨id, -, hid⟩ := List.mem_map.1 hsome
    obtain ⟨entry, he, -⟩ := Option.map_eq_some_iff.1 hid.symm
    exact ⟨entry, he⟩

/-- What comes of a service that is called for many handles: it is refused, and the session is as it
was, or the buses of the handles are called. -/
structure IsBulkCall (session : Session) (handles : List Handle) (service : String)
    (data : Option Json.Value) (result : Except HubError Unit × Session) : Prop where
  empty : handles = [] → result = (.ok (), session)
  emptyName : handles ≠ [] → (EntityId.split service).2 = "" →
    result = (.error (.serviceCall .emptyServiceName), session)
  /-- The handle that is told is the first without a domain. -/
  missingDomain : ∀ name front handle back, EntityId.split service = (none, name) → name ≠ "" →
    handles = front ++ handle :: back → (∀ other ∈ front, other.domain? ≠ none) →
    handle.domain? = none →
    result = (.error (.serviceCall (.missingDomain handle.entityId name)), session)
  mixedDomains : ∀ name, EntityId.split service = (none, name) → name ≠ "" →
    (∀ handle ∈ handles, handle.domain? ≠ none) →
    (∃ first ∈ handles, ∃ second ∈ handles, first.domain? ≠ second.domain?) →
    ∃ domains : List String, domains.Pairwise (· < ·) ∧
      (∀ domain, domain ∈ domains ↔ ∃ handle ∈ handles, handle.domain? = some domain) ∧
      result = (.error (.serviceCall (.mixedDomains service domains)), session)
  calls : ∀ domain name, handles ≠ [] → name ≠ "" →
    (EntityId.split service = (some domain, name) ∨
      EntityId.split service = (none, name) ∧ ∀ handle ∈ handles, handle.domain? = some domain) →
    ∃ ids deliveries, Handle.IsPlan handles domain name data ids deliveries ∧
      session.Serves deliveries result

theorem isBulkCall_callServiceFor (session : Session) (handles : List Handle) (service : String)
    (data : Option Json.Value) (hon : ∀ handle ∈ handles, handle.IsOn session) :
    session.IsBulkCall handles service data (session.callServiceFor handles service data) where
  empty hnil := by
    subst hnil
    rfl
  emptyName hne hname := by rw [callServiceFor, Handle.deliveries_empty hne hname, request]
  missingDomain name front handle back hs hn hsplit hf hh := by
    subst hsplit
    rw [callServiceFor, Handle.deliveries_missing hs hn hf hh, request]
  mixedDomains name hs hn hd hmixed := by
    obtain ⟨first, hf, second, hm, hne⟩ := hmixed
    refine ⟨_, Text.pairwise_ascending (handles.filterMap Handle.domain?), fun domain => ?_, ?_⟩
    · rw [Text.mem_ascending, List.mem_filterMap]
    · rw [callServiceFor, Handle.deliveries_mixed hs hn hd hf hm hne, request]
  calls domain name hne hn hs := by
    refine ⟨_, _, Handle.isPlan_filterMap_deliveryTo, ?_⟩
    rw [callServiceFor, Handle.deliveries_eq hne hn hs]
    exact serves_of_isPlan Handle.isPlan_filterMap_deliveryTo hon

/-- Two buses, of which the one with the greater id comes first and refuses its calls. -/
def lamps : Session :=
  (ofBuses [⟨.ofNat 2, 16, [], [], [], []⟩, ⟨.ofNat 1, 16, [], [], [], []⟩]).setFailing 0 true

def lampHandles : List Handle :=
  [⟨0, .ofNat 2, "light.desk"⟩, ⟨1, .ofNat 1, "light.hall"⟩, ⟨0, .ofNat 2, "light.shelf"⟩,
    ⟨1, .ofNat 1, "light.hall"⟩]

theorem isBulkCall_lamps :
    lamps.handles? [(0, "light.desk"), (1, "light.hall"), (0, "light.shelf"), (1, "light.hall")] =
      some lampHandles ∧
    lamps.IsBulkCall lampHandles "turn_on" none (lamps.callServiceFor lampHandles "turn_on" none) ∧
    (lamps.callServiceFor lampHandles "turn_on" none).1 = .error (.bus .closed) ∧
    (lamps.callServiceFor lampHandles "turn_on" none).2.slots.map (·.bus.calls) =
      [[], [⟨"light", "turn_on", .entities ["light.hall", "light.hall"], none⟩]] := by
  have hhandles : lamps.handles? [(0, "light.desk"), (1, "light.hall"), (0, "light.shelf"),
    (1, "light.hall")] = some lampHandles := rfl
  exact ⟨hhandles, isBulkCall_callServiceFor _ _ _ _ (isOn_of_handles?_eq_some hhandles), rfl, rfl⟩

end Session

end HomeHub
