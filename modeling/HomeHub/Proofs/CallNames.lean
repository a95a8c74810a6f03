import HomeHub.Proofs.BulkCall

/-!
# Domains and names of calls

What a service is called by, for one handle or for many: its name stands behind its first dot, its
domain in front of that or in front of the first dot of the entity. A call without a name is refused,
and so is one that lacks a domain. A domain that is there and empty is handed over.
-/

namespace HomeHub

namespace EntityId

theorem domain?_eq_none {id : String} : domain? id = none ↔ '.' ∉ id.toList := by
  unfold domain? split
  cases h : splitChars id.toList with
  | mk left right =>
    cases left with
    | none => simpa using (splitChars_none h).2
    | some left => simp [(splitChars_some h).1]

theorem domain?_eq_some_empty {id : String} :
    domain? id = some "" ↔ id.toList.head? = some '.' := by
  unfold domain? split
  cases id.toList with
  | nil => simp [splitChars]
  | cons c rest =>
    by_cases hc : c = '.'
    · simp [splitChars, hc]
    · cases h : splitChars rest with
      | mk left right => cases left <;> simp [splitChars, hc, h]

end EntityId

namespace Handle

variable {handle : Handle} {handles : List Handle} {service domain name : String}
  {data : Option Json.Value}

-- ---------------------------------------------------------------------------
-- The domain and the name of a service
-- ---------------------------------------------------------------------------

def callDomain? (handle : Handle) (service : String) : Option String :=
  (EntityId.domain? service).or handle.domain?

/-- The first dot of the service has nothing in front of it, or the service has no dot and the first
dot of the entity has nothing in front of it. -/
def LeavesDomainEmpty (handle : Handle) (service : String) : Prop :=
  service.toList.head? = some '.' ∨
    '.' ∉ service.toList ∧ handle.entityId.toList.head? = some '.'

theorem callDomain?_eq_some_empty :
    handle.callDomain? service = some "" ↔ handle.LeavesDomainEmpty service := by
  rw [callDomain?, Option.or_eq_some_iff, EntityId.domain?_eq_some_empty, EntityId.domain?_eq_none,
    domain?, EntityId.domain?_eq_some_empty, LeavesDomainEmpty]

theorem resolveService_eq_ok : resolveService handle.entityId service = .ok (domain, name) ↔
    (EntityId.split service).2 = name ∧ name ≠ "" ∧ handle.callDomain? service = some domain := by
  unfold resolveService callDomain? EntityId.domain? domain? EntityId.domain?
  obtain ⟨own, found⟩ := EntityId.split service
  by_cases hn : found = ""
  · simp_all
  · have hpair (other : String) :
        other = domain ∧ found = name ↔ found = name ∧ name ≠ "" ∧ other = domain := by
      constructor
      · rintro ⟨rfl, rfl⟩
        exact ⟨rfl, hn, rfl⟩
      · rintro ⟨rfl, -, rfl⟩
        exact ⟨rfl, rfl⟩
    cases own with
    | some own => simpa [hn] using hpair own
    | none =>
      cases (EntityId.split handle.entityId).1 with
      | none => simp [hn]
      | some other => simpa [hn] using hpair other

theorem delivery_eq_ok {delivery : Delivery} : handle.delivery service data = .ok delivery ↔
    ∃ domain name, resolveService handle.entityId service = .ok (domain, name) ∧
      delivery = ⟨handle.bus, ⟨domain, name, .entity handle.entityId, data⟩⟩ := by
  rw [Handle.delivery, bind_eq_ok, Prod.exists]
  exact exists₂_congr fun domain name => and_congr_right' (pure_eq_ok.trans eq_comm)

-- ---------------------------------------------------------------------------
-- One name for many handles
-- ---------------------------------------------------------------------------

theorem domain?_of_checkDomains_eq_ok {first : Handle}
    (h : EntityId.split service = (none, name)) (hn : name ≠ "")
    (hc : checkDomains handles service = .ok ()) (hf : first ∈ handles)
    (hd : first.domain? = some domain) : ∀ handle ∈ handles, handle.domain? = some domain := by
  have hall : ∀ handle ∈ handles, handle.domain? ≠ none := by
    obtain ⟨domains, hs, -⟩ := bind_eq_ok.1 hc
    intro handle hm hnone
    obtain ⟨found, -, hfound⟩ := exists_of_mem_of_mapM_eq_ok hs hm
    rw [resolveService_missing _ h hn hnone] at hfound
    cases hfound
  intro handle hm
  by_contra hne
  rw [checkDomains_mixed h hn hall hm hf (by rwa [hd])] at hc
  cases hc

theorem forall_resolveService_eq_ok (hne : handles ≠ []) :
    (∀ handle ∈ handles, resolveService handle.entityId service = .ok (domain, name)) ↔
      name ≠ "" ∧ (EntityId.split service = (some domain, name) ∨
        EntityId.split service = (none, name) ∧
          ∀ handle ∈ handles, handle.domain? = some domain) := by
  constructor
  · intro h
    obtain ⟨first, hfirst⟩ := List.exists_mem_of_ne_nil _ hne
    obtain ⟨hname, hn, hd⟩ := resolveService_eq_ok.1 (h first hfirst)
    refine ⟨hn, ?_⟩
    rcases Option.or_eq_some_iff.1 hd with hown | ⟨hnone, -⟩
    · exact .inl (Prod.ext hown hname)
    · refine .inr ⟨Prod.ext hnone hname, fun handle hm => ?_⟩
      have hcalled := (resolveService_eq_ok.1 (h handle hm)).2.2
      rwa [callDomain?, hnone, Option.none_or] at hcalled
  · rintro ⟨hn, hs | ⟨hs, hd⟩⟩ handle hm
    · exact resolveService_qualified _ hs hn
    · exact resolveService_bare _ hs hn (hd handle hm)

theorem deliveries_eq_ok {deliveries : List Delivery} (hne : handles ≠ []) :
    Handle.deliveries handles service data = .ok deliveries ↔ ∃ domain name,
      (∀ handle ∈ handles, resolveService handle.entityId service = .ok (domain, name)) ∧
      deliveries = (busIds handles).filterMap (deliveryTo handles domain name data) := by
  constructor
  · intro h
    obtain ⟨first, rest, rfl⟩ := List.exists_cons_of_ne_nil hne
    obtain ⟨⟨domain, name⟩, hfirst, -⟩ := bind_eq_ok.1 h
    have hone := (forall_resolveService_eq_ok (List.cons_ne_nil first [])).1
      (List.forall_mem_singleton.2 hfirst)
    obtain ⟨hn, hcases⟩ := hone
    have hall : EntityId.split service = (some domain, name) ∨
        EntityId.split service = (none, name) ∧
          ∀ handle ∈ first :: rest, handle.domain? = some domain := by
      refine hcases.imp_right fun ⟨hs, hd⟩ => ⟨hs, ?_⟩
      -- the domains have been checked
      have hd := hd first List.mem_cons_self
      rw [deliveries_bare rest hs hn hd] at h
      obtain ⟨_, hchecked, -⟩ := map_result_eq_ok.1 h
      exact domain?_of_checkDomains_eq_ok hs hn hchecked List.mem_cons_self hd
    refine ⟨domain, name, (forall_resolveService_eq_ok hne).2 ⟨hn, hall⟩, ?_⟩
    exact Except.ok.inj (h.symm.trans (deliveries_eq hne hn hall))
  · rintro ⟨domain, name, hall, rfl⟩
    obtain ⟨hn, hcases⟩ := (forall_resolveService_eq_ok hne).1 hall
    exact deliveries_eq hne hn hcases

theorem call_of_mem_filterMap_deliveryTo {delivery : Delivery}
    (h : delivery ∈ (busIds handles).filterMap (deliveryTo handles domain name data)) :
    delivery.call.domain = domain ∧ delivery.call.service = name ∧ delivery.call.data = data := by
  obtain ⟨id, hid, hd⟩ := List.mem_filterMap.1 h
  obtain ⟨_, hfound, hcall⟩ := isCallFor_deliveryTo hid
  obtain rfl := Option.some.inj (hfound.symm.trans hd)
  simp [hcall.call]

end Handle

-- ---------------------------------------------------------------------------
-- What buses record
-- ---------------------------------------------------------------------------

namespace Session

variable {session : Session} {handles : List Handle} {service : String} {data : Option Json.Value}
  {requested : Except ServiceCallError (List Delivery)}

theorem records_of_deliver_eq_ok {delivery : Delivery} {later : Session}
    (h : session.deliver delivery = .ok later) : session.Records [delivery] later := by
  cases hs : session.slots[delivery.bus]? with
  | none => simp [deliver, hs] at h
  | some entry =>
    cases hr : session.refusal? delivery.bus with
    | some error =>
      rw [deliver_of_refusal hr] at h
      cases h
    | none =>
      obtain ⟨next, hn, hrecords⟩ := deliver_of_refusal_none hs hr
      exact Except.ok.inj (hn.symm.trans h) ▸ hrecords

theorem exists_calls_deliverAll (session : Session) (deliveries : List Delivery) (slot : Nat) :
    ∃ taken : List ServiceCall, taken.Sublist (deliveries.map Delivery.call) ∧
      (session.deliverAll deliveries).2.slots[slot]?.map (·.bus.calls) =
        session.slots[slot]?.map fun entry => entry.bus.calls ++ taken := by
  induction deliveries generalizing session with
  | nil => exact ⟨[], List.nil_sublist _, by simp [deliverAll]⟩
  | cons delivery rest ih =>
    unfold deliverAll
    cases h : session.deliver delivery with
    | error error => exact ⟨[], List.nil_sublist _, by simp⟩
    | ok next =>
      obtain ⟨taken, hsub, htaken⟩ := ih next
      have hrecords := records_of_deliver_eq_ok h
      -- the rest is handed over behind the first call, which may be for another bus
      by_cases hslot : delivery.bus = slot
      · obtain ⟨entry, he, hl⟩ := hrecords.recorded delivery List.mem_cons_self
        subst hslot
        exact ⟨delivery.call :: taken, hsub.cons_cons _, by simp [htaken, hl, he]⟩
      · have hother := hrecords.others slot (by simpa using hslot)
        exact ⟨taken, hsub.cons _, by rw [htaken, hother]⟩

/-- What comes of a service that is called for handles. It is accepted if it has a name and one domain
for all of them, and otherwise refused, which leaves the session as it is. What is handed over has a
name, and its domain is empty just where the dot of the service or of the entities has nothing in
front. -/
structure IsScreened (session : Session) (handles : List Handle) (service : String)
    (requested : Except ServiceCallError (List Delivery))
    (result : Except HubError Unit × Session) : Prop where
  accepted_iff : (∃ deliveries, requested = .ok deliveries) ↔ handles = [] ∨
    (EntityId.split service).2 ≠ "" ∧
      ∃ domain, ∀ handle ∈ handles, handle.callDomain? service = some domain
  emptyName : handles ≠ [] → (EntityId.split service).2 = "" →
    requested = .error .emptyServiceName
  refused : ∀ error, requested = .error error → result = (.error (.serviceCall error), session)
  handed : ∀ deliveries, requested = .ok deliveries → ∀ delivery ∈ deliveries,
    delivery.call.service ≠ "" ∧
      ∀ handle ∈ handles, delivery.call.domain = "" ↔ handle.LeavesDomainEmpty service
  recorded : ∀ deliveries, requested = .ok deliveries → ∀ slot : Nat, ∃ taken : List ServiceCall,
    taken.Sublist (deliveries.map Delivery.call) ∧
      result.2.slots[slot]?.map (fun entry : BusSlot => entry.bus.calls) =
        session.slots[slot]?.map fun entry : BusSlot => entry.bus.calls ++ taken

theorem isScreened_request {make : String → String → List Delivery}
    (hempty : handles = [] → requested = .ok [])
    (hok : handles ≠ [] → ∀ deliveries, requested = .ok deliveries ↔ ∃ domain name,
      (∀ handle ∈ handles, resolveService handle.entityId service = .ok (domain, name)) ∧
      deliveries = make domain name)
    (hmake : ∀ domain name, ∀ delivery ∈ make domain name,
      delivery.call.domain = domain ∧ delivery.call.service = name)
    (hname : handles ≠ [] → (EntityId.split service).2 = "" →
      requested = .error .emptyServiceName) :
    session.IsScreened handles service requested (session.request requested) where
  accepted_iff := by
    by_cases hne : handles = []
    · simp [hne, hempty hne]
    · obtain ⟨first, hfirst⟩ := List.exists_mem_of_ne_nil _ hne
      simp only [hok hne, hne, false_or, Handle.resolveService_eq_ok]
      constructor
      · rintro ⟨_, domain, name, hall, -⟩
        obtain ⟨rfl, hn, -⟩ := hall first hfirst
        exact ⟨hn, domain, fun handle hm => (hall handle hm).2.2⟩
      · rintro ⟨hn, domain, hall⟩
        exact ⟨_, domain, _, fun handle hm => ⟨rfl, hn, hall handle hm⟩, rfl⟩
  emptyName := hname
  refused error h := by rw [h, request]
  handed deliveries h delivery hd := by
    by_cases hne : handles = []
    · rw [hempty hne] at h
      cases h
      simp at hd
    · obtain ⟨domain, name, hall, rfl⟩ := (hok hne deliveries).1 h
      obtain ⟨rfl, rfl⟩ := hmake domain name delivery hd
      obtain ⟨first, hfirst⟩ := List.exists_mem_of_ne_nil _ hne
      refine ⟨(Handle.resolveService_eq_ok.1 (hall first hfirst)).2.1, fun handle hm => ?_⟩
      rw [← Handle.callDomain?_eq_some_empty, (Handle.resolveService_eq_ok.1 (hall handle hm)).2.2,
        Option.some.injEq]
  recorded deliveries h slot := by
    rw [h, request]
    exact exists_calls_deliverAll session deliveries slot

/-- A service is screened when it is called for one handle and when it is called for many. -/
theorem isScreened_calls (session : Session) (service : String) (data : Option Json.Value) :
    (∀ handle : Handle, session.IsScreened [handle] service
      ((handle.delivery service data).map ([·])) (session.callService handle service data)) ∧
    ∀ handles, session.IsScreened handles service (Handle.deliveries handles service data)
      (session.callServiceFor handles service data) := by
  constructor
  · intro handle
    have hok : ∀ deliveries, (handle.delivery service data).map ([·]) = .ok deliveries ↔
        ∃ domain name, (∀ other ∈ [handle],
          resolveService other.entityId service = .ok (domain, name)) ∧
        deliveries = [⟨handle.bus, ⟨domain, name, .entity handle.entityId, data⟩⟩] := by
      intro deliveries
      simp only [map_result_eq_ok, Handle.delivery_eq_ok, List.forall_mem_singleton]
      constructor
      · rintro ⟨_, ⟨domain, name, hr, rfl⟩, rfl⟩
        exact ⟨domain, name, hr, rfl⟩
      · rintro ⟨domain, name, hr, rfl⟩
        exact ⟨_, ⟨domain, name, hr, rfl⟩, rfl⟩
    refine isScreened_request (by simp) (fun _ => hok) (by simp) fun _ hname => ?_
    rw [Handle.delivery, resolveService_empty _ hname]
    rfl
  · intro handles
    refine isScreened_request (by rintro rfl; rfl) (fun hne _ => Handle.deliveries_eq_ok hne) ?_
      fun hne hname => Handle.deliveries_empty hne hname
    intro domain name delivery hd
    obtain ⟨hdomain, hname, -⟩ := Handle.call_of_mem_filterMap_deliveryTo hd
    exact ⟨hdomain, hname⟩

def porch : Session := ofBuses [⟨.ofNat 1, 16, [], [], [], []⟩]

/-- An entity id and a service that start with their dot are called in a domain without a name. -/
theorem records_emptyDomain :
    (porch.callService ⟨0, .ofNat 1, ".lamp"⟩ "turn_on" none).1 = .ok () ∧
    (porch.callService ⟨0, .ofNat 1, ".lamp"⟩ "turn_on" none).2.slots.map (·.bus.calls) =
      [[⟨"", "turn_on", .entity ".lamp", none⟩]] ∧
    (porch.callServiceFor [⟨0, .ofNat 1, "light.a"⟩] ".turn_on" none).1 = .ok () ∧
    (porch.callServiceFor [⟨0, .ofNat 1, "light.a"⟩] ".turn_on" none).2.slots.map (·.bus.calls) =
      [[⟨"", "turn_on", .entities ["light.a"], none⟩]] :=
  ⟨rfl, rfl, rfl, rfl⟩

end Session

end HomeHub
