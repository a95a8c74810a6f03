import HomeHub.Proofs.CallNames

/-!
# Calls for one handle

A service that is called for a single handle and for the list of that handle fares the same: it is
refused for the same reason, or the bus records the same call, which names the entity alone in one
case and in a list in the other.
-/

namespace HomeHub

def Delivery.listed (delivery : Delivery) : Delivery :=
  { delivery with
    call := { delivery.call with target := .entities delivery.call.target.entityIds } }

-- ---------------------------------------------------------------------------
-- What is requested
-- ---------------------------------------------------------------------------

namespace Handle

variable {handle : Handle} {handles : List Handle} {service domain name : String}
  {data : Option Json.Value}

theorem filterMap_deliveryTo_singleton :
    (busIds [handle]).filterMap (deliveryTo [handle] domain name data) =
      [⟨handle.bus, ⟨domain, name, .entities [handle.entityId], data⟩⟩] := by
  have hids : busIds [handle] = [handle.busId] := rfl
  simp [hids, deliveryTo]

theorem deliveries_singleton : deliveries [handle] service data =
    (handle.delivery service data).map fun delivery => [delivery.listed] := by
  cases h : resolveService handle.entityId service with
  | error error =>
    simp only [deliveries, delivery, h]
    rfl
  | ok found =>
    obtain ⟨domain, name⟩ := found
    rw [delivery_eq_ok.2 ⟨domain, name, h, rfl⟩, (deliveries_eq_ok (List.cons_ne_nil _ _)).2
      ⟨domain, name, List.forall_mem_singleton.2 h, rfl⟩, filterMap_deliveryTo_singleton]
    rfl

/-- What a call for many handles asks of the buses, beside what each handle would ask of its own. -/
structure IsShared (handles : List Handle) (service : String) (data : Option Json.Value)
    (deliveries : List Delivery) (domain name : String) : Prop where
  calls : ∀ delivery ∈ deliveries, delivery.call.domain = domain ∧ delivery.call.service = name ∧
    delivery.call.data = data
  own : ∀ handle ∈ handles, handle.delivery service data =
    .ok ⟨handle.bus, ⟨domain, name, .entity handle.entityId, data⟩⟩
  reached : ∀ handle ∈ handles, ∃ delivery ∈ deliveries,
    handle.entityId ∈ delivery.call.target.entityIds

theorem isShared_of_deliveries_eq_ok {deliveries : List Delivery} (hne : handles ≠ [])
    (h : Handle.deliveries handles service data = .ok deliveries) :
    ∃ domain name, IsShared handles service data deliveries domain name := by
  obtain ⟨domain, name, hall, rfl⟩ := (deliveries_eq_ok hne).1 h
  refine ⟨domain, name, fun delivery hd => call_of_mem_filterMap_deliveryTo hd,
    fun handle hm => delivery_eq_ok.2 ⟨domain, name, hall handle hm, rfl⟩, fun handle hm => ?_⟩
  -- the targets are the entities of all handles
  exact List.mem_flatMap.1
    (isPlan_filterMap_deliveryTo.targets.mem_iff.2 (List.mem_map_of_mem hm))

theorem deliveries_qualified (h : EntityId.split service = (some domain, name))
    (hne : handles ≠ []) : (deliveries handles service data).map (fun _ => ()) =
      if name = "" then .error .emptyServiceName else .ok () := by
  split
  · rename_i hn
    rw [deliveries_empty hne (by rw [h, hn]), Except.map]
  · rename_i hn
    rw [deliveries_eq hne hn (.inl h), Except.map]

end Handle

-- ---------------------------------------------------------------------------
-- What is recorded
-- ---------------------------------------------------------------------------

namespace Session

variable {session : Session} {handle : Handle} {service : String} {data : Option Json.Value}

/-- What comes of a call for a handle and of one for the list of that handle: both are refused for the
same reason, or the bus records the one call or the other. -/
inductive FareAlike (session : Session) (handle : Handle) (service : String)
    (data : Option Json.Value) :
    Except HubError Unit × Session → Except HubError Unit × Session → Prop where
  | rejected {error : ServiceCallError} (h : resolveService handle.entityId service = .error error) :
      FareAlike session handle service data (.error (.serviceCall error), session)
        (.error (.serviceCall error), session)
  | missing {domain name : String} (h : resolveService handle.entityId service = .ok (domain, name))
      (hs : session.slots[handle.bus]? = none) :
      FareAlike session handle service data (.error (.bus .closed), session)
        (.error (.bus .closed), session)
  | refused {domain name : String} {error : HubError}
      (h : resolveService handle.entityId service = .ok (domain, name))
      (hf : session.refusal? handle.bus = some error) :
      FareAlike session handle service data (.error error, session) (.error error, session)
  | recorded {domain name : String} {later laterListed : Session}
      (h : resolveService handle.entityId service = .ok (domain, name))
      (hr : session.Records [⟨handle.bus, ⟨domain, name, .entity handle.entityId, data⟩⟩] later)
      (hl : session.Records [⟨handle.bus, ⟨domain, name, .entities [handle.entityId], data⟩⟩]
        laterListed) :
      FareAlike session handle service data (.ok (), later) (.ok (), laterListed)

theorem deliverAll_singleton_of_eq_ok {delivery : Delivery} {later : Session}
    (h : session.deliver delivery = .ok later) :
    session.deliverAll [delivery] = (.ok (), later) := by
  rw [deliverAll, h]
  rfl

theorem deliverAll_singleton_of_eq_error {delivery : Delivery} {error : HubError}
    (h : session.deliver delivery = .error error) :
    session.deliverAll [delivery] = (.error error, session) := by
  rw [deliverAll, h]

theorem fareAlike_calls (session : Session) (handle : Handle) (service : String)
    (data : Option Json.Value) : session.FareAlike handle service data
      (session.callService handle service data)
      (session.callServiceFor [handle] service data) := by
  unfold callService callServiceFor
  rw [Handle.deliveries_singleton]
  cases h : resolveService handle.entityId service with
  | error error =>
    rw [Handle.delivery, h]
    exact .rejected h
  | ok found =>
    obtain ⟨domain, name⟩ := found
    rw [Handle.delivery_eq_ok.2 ⟨domain, name, h, rfl⟩]
    simp only [Except.map, request, Delivery.listed, ServiceTarget.entityIds]
    -- whether the bus takes a call does not depend on what the call says
    cases hs : session.slots[handle.bus]? with
    | none =>
      have hclosed (call : ServiceCall) :
          session.deliver ⟨handle.bus, call⟩ = .error (.bus .closed) := by
        simp only [deliver, hs]
      rw [deliverAll_singleton_of_eq_error (hclosed _), deliverAll_singleton_of_eq_error (hclosed _)]
      exact .missing h hs
    | some entry =>
      cases hf : session.refusal? handle.bus with
      | some error =>
        have hrefused (call : ServiceCall) : session.deliver ⟨handle.bus, call⟩ = .error error :=
          deliver_of_refusal hf
        rw [deliverAll_singleton_of_eq_error (hrefused _),
          deliverAll_singleton_of_eq_error (hrefused _)]
        exact .refused h hf
      | none =>
        have hserved (call : ServiceCall) : ∃ later, session.deliver ⟨handle.bus, call⟩ = .ok later ∧
            session.Records [⟨handle.bus, call⟩] later := deliver_of_refusal_none hs hf
        obtain ⟨later, ho, hone⟩ := hserved ⟨domain, name, .entity handle.entityId, data⟩
        obtain ⟨other, hm, hmany⟩ := hserved ⟨domain, name, .entities [handle.entityId], data⟩
        rw [deliverAll_singleton_of_eq_ok ho, deliverAll_singleton_of_eq_ok hm]
        exact .recorded h hone hmany

structure CallsAgree (service : String) (data : Option Json.Value) : Prop where
  single : ∀ (session : Session) (handle : Handle), session.FareAlike handle service data
    (session.callService handle service data) (session.callServiceFor [handle] service data)
  members : ∀ handles deliveries, handles ≠ [] →
    Handle.deliveries handles service data = .ok deliveries →
    ∃ domain name, Handle.IsShared handles service data deliveries domain name
  qualified : ∀ domain name, EntityId.split service = (some domain, name) →
    ∀ handles, handles ≠ [] → (Handle.deliveries handles service data).map (fun _ => ()) =
      if name = "" then .error .emptyServiceName else .ok ()

theorem callsAgree (service : String) (data : Option Json.Value) : CallsAgree service data where
  single session handle := session.fareAlike_calls handle service data
  members _ _ := Handle.isShared_of_deliveries_eq_ok
  qualified _ _ h _ := Handle.deliveries_qualified h

theorem callsAgree_turnOn : CallsAgree "turn_on" none ∧
    (porch.callService ⟨0, .ofNat 1, "light.a"⟩ "turn_on" none).1 = .ok () ∧
    (porch.callService ⟨0, .ofNat 1, "light.a"⟩ "turn_on" none).2.slots.map (·.bus.calls) =
      [[⟨"light", "turn_on", .entity "light.a", none⟩]] ∧
    (porch.callServiceFor [⟨0, .ofNat 1, "light.a"⟩] "turn_on" none).1 = .ok () ∧
    (porch.callServiceFor [⟨0, .ofNat 1, "light.a"⟩] "turn_on" none).2.slots.map (·.bus.calls) =
      [[⟨"light", "turn_on", .entities ["light.a"], none⟩]] :=
  ⟨callsAgree "turn_on" none, rfl, rfl, rfl, rfl⟩

end Session

end HomeHub
