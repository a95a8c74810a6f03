import HomeHub.Model.Access
import HomeHub.Proofs.CallNames
import HomeHub.Proofs.Groups
import HomeHub.Proofs.ServiceDefinitions
import HomeHub.Proofs.SourceLiterals

/-!
# Calls through extensions

A method of a service group sends domain and service as they are. As a method of an entity the same
service is called by its qualified name, which is split again at its first dot. Both make the same
call: a domain that has entities has no dot, so the first dot is the one behind the domain. Only a
service without a name cannot be called for an entity.
-/

namespace HomeHub

namespace EntityId

theorem splitChars_append {domain : List Char} (h : '.' ∉ domain) (name : List Char) :
    splitChars (domain ++ '.' :: name) = (some domain, name) := by
  induction domain with
  | nil => simp [splitChars]
  | cons c rest ih =>
    obtain ⟨hc, hrest⟩ := not_or.1 (mt List.mem_cons.2 h)
    simp only [List.cons_append, splitChars, if_neg (Ne.symm hc), ih hrest]

theorem split_append {domain : String} (h : '.' ∉ domain.toList) (name : String) :
    split (domain ++ "." ++ name) = (some domain, name) := by
  have hchars : (domain ++ "." ++ name).toList = domain.toList ++ '.' :: name.toList := by simp
  simp [split, hchars, splitChars_append h]

theorem dot_notMem_groupingDomain (id : String) : '.' ∉ (groupingDomain id).toList := by
  unfold groupingDomain
  cases hd : domain? id with
  | none => exact domain?_eq_none.1 hd
  | some domain =>
    unfold domain? split at hd
    cases h : splitChars id.toList with
    | mk left right =>
      obtain ⟨chars, rfl, rfl⟩ : ∃ chars, left = some chars ∧ String.ofList chars = domain := by
        simpa [h] using hd
      simpa using (splitChars_some h).2

end EntityId

theorem resolveService_append {domain : String} (h : '.' ∉ domain.toList) (entityId name : String) :
    resolveService entityId (domain ++ "." ++ name) =
      if name = "" then .error .emptyServiceName else .ok (domain, name) := by
  have hs := EntityId.split_append h name
  split
  · rename_i hn
    exact resolveService_empty entityId (by rw [hs, hn])
  · rename_i hn
    exact resolveService_qualified entityId hs hn

theorem dot_notMem_domain_of_mem_assemble {samples : List EntitySample} {options : SchemaOptions}
    {schema : EntitySchema} (h : schema ∈ assemble samples options) :
    '.' ∉ schema.domain.toList := by
  obtain ⟨sample, -, hd, -⟩ := exists_mem_assemble.1 ⟨schema, h, rfl, rfl⟩
  exact hd ▸ EntityId.dot_notMem_groupingDomain sample.entityId

namespace GeneratedModel

/-- What a method of an extension writes into the source and calls, beside the method of a group. -/
structure CallsAs (model : GeneratedModel) (extensions : EntityExtensions) (group : ServiceGroup)
    (method : ServiceMethod) : Prop where
  /-- The one literal of the method of an entity, and the two of the method of the group. -/
  written : ∀ crates : Source.Crates, crates.AreInert →
    Source.HoldAll crates (Source.extensionMethod extensions.domain method)
        [extensions.domain ++ "." ++ method.service] ∧
      Source.HoldAll crates (Source.groupMethod group.domain method)
        [extensions.domain, method.service]
  resolved_iff : ∀ entityId : String,
    resolveService entityId (extensions.domain ++ "." ++ method.service) =
      .ok (extensions.domain, method.service) ↔ method.service ≠ ""
  refused : method.service = "" → ∀ entityId : String,
    resolveService entityId (extensions.domain ++ "." ++ method.service) = .error .emptyServiceName
  /-- A call for an entity is what the group sends with this entity as its target. -/
  sent : ∀ (handle : Handle) (given : Table Json.Value),
    model.entityCall handle extensions method given =
      if method.service = "" then .error .emptyServiceName
      else .ok ⟨handle.bus, model.groupCall group method (.entity handle.entityId) given⟩

theorem callsAs {model : GeneratedModel} {extensions : EntityExtensions} {group : ServiceGroup}
    {method : ServiceMethod} (hd : group.domain = extensions.domain)
    (hdot : '.' ∉ extensions.domain.toList) (hw : method.IsWorded) :
    model.CallsAs extensions group method where
  written crates hc := ⟨(Source.print_extensionMethod crates extensions.domain hw).holdAll hc,
    hd ▸ (Source.print_groupMethod crates group.domain hw).holdAll hc⟩
  resolved_iff entityId := by
    rw [resolveService_append hdot]
    split <;> simp [*]
  refused hn entityId := by rw [resolveService_append hdot, if_pos hn]
  sent handle given := by
    have hresolved := resolveService_append hdot handle.entityId method.service
    split
    · rename_i hn
      rw [if_pos hn] at hresolved
      rw [entityCall, Handle.delivery, ServiceMethod.qualifiedName, hresolved]
      rfl
    · rename_i hn
      rw [if_neg hn] at hresolved
      rw [groupCall, hd]
      exact Handle.delivery_eq_ok.2 ⟨_, _, hresolved, rfl⟩

/-- A method of an extension is the method of the one group of the domain, and calls what that
sends. -/
theorem extension_calls_as_group (samples : List EntitySample) (options : SchemaOptions)
    (catalog : List ServiceDomain) (model : GeneratedModel)
    (h : generate (assemble samples options) catalog = .ok model) (extensions : EntityExtensions)
    (hx : .entityExtensions extensions ∈ model.types) :
    ∃ group, model.groupsOf extensions.domain = [group] ∧ group.methods = extensions.methods ∧
      ∀ method ∈ extensions.methods, model.CallsAs extensions group method := by
  obtain ⟨services, hg, hc⟩ := bind_eq_ok.1 h
  obtain ⟨hnames, -, rfl⟩ := check_eq_ok.1 hc
  obtain ⟨result, hr, hmade⟩ := mem_entityExtensions.1 hx
  obtain ⟨hany, rfl⟩ := ServiceGroup.extensions?_eq_some.1 hmade
  -- the domain is one of the schemas, which have no dots
  obtain ⟨entity, he, hd⟩ := List.any_eq_true.1 hany
  obtain ⟨schema, hs, rfl⟩ := List.mem_map.1 he
  have hdomain : schema.domain = result.1.domain := eq_of_beq hd
  have hdot : '.' ∉ result.1.domain.toList := hdomain ▸ dot_notMem_domain_of_mem_assemble hs
  have hgroup : .serviceGroup result.1 ∈ definitions (assemble samples options) services :=
    mem_serviceGroup.2 ⟨result, hr, rfl⟩
  have hworded := isWorded_of_mem_definitions hg hgroup
  exact ⟨result.1, groupsOf_eq_singleton hg hnames hr, rfl,
    fun method hm => callsAs rfl hdot (hworded.groupMethod hm)⟩

def deskSamples : List EntitySample := [⟨"light.desk.lamp", none, []⟩]

def deskSchema : EntitySchema := ⟨"light", false, deskSamples, []⟩

def nameless : Service := ⟨"", none, []⟩

def warmUp : Service := ⟨"warm.up", none, []⟩

def deskLights : ServiceDomain := ⟨"light", [nameless, warmUp]⟩

def deskGroup : ServiceGroup :=
  ⟨"LightServices", "light", [⟨"Unnamed", "", none, none⟩, ⟨"WarmUp", "warm.up", none, none⟩]⟩

def deskExtensions : EntityExtensions :=
  ⟨"LightEntityExtensions", "light", ["LightEntity"], deskGroup.methods⟩

theorem assemble_deskSamples : assemble deskSamples ⟨[]⟩ = [deskSchema] := by cbv

theorem generate_deskSamples : generate (assemble deskSamples ⟨[]⟩) [deskLights] =
    .ok ⟨definitions (assemble deskSamples ⟨[]⟩) [(deskGroup, [])]⟩ := by
  have hsorted : Text.sortedBy Service.name deskLights.services = [nameless, warmUp] :=
    Text.sortedBy_of_pairwise (by decide +kernel)
  have hkeys : [nameless, warmUp].map Service.name = ["", "warm.up"] := rfl
  have hdescribed : deskLights.described = [("Unnamed", nameless), ("WarmUp", warmUp)] := by
    simp only [ServiceDomain.described, hsorted, hkeys, Naming.canonicalNames]
    rw [Text.sortedByBoth_of_pairwise (by decide +kernel)]
    decide +kernel
  have hgroup : deskLights.group = .ok (deskGroup, []) := by
    refine ServiceDomain.group_eq_ok.2 ⟨deskGroup.methods.map (·, none), ?_, by decide +kernel, rfl⟩
    rw [hdescribed]
    rfl
  have hservices : ServiceDomain.withServices [deskLights] = [deskLights] := by decide +kernel
  rw [assemble_deskSamples]
  refine bind_eq_ok.2 ⟨[(deskGroup, [])], ?_,
    check_eq_ok.2 ⟨by decide +kernel, by decide +kernel, rfl⟩⟩
  rw [ServiceDomain.groups, hservices]
  exact mapM_eq_ok.2 (.cons hgroup .nil)

theorem extension_calls_as_group_desk : ∃ model,
    generate (assemble deskSamples ⟨[]⟩) [deskLights] = .ok model ∧
      .entityExtensions deskExtensions ∈ model.types ∧
      ∃ group, model.groupsOf "light" = [group] ∧ group.methods = deskExtensions.methods ∧
        ∀ method ∈ deskExtensions.methods, model.CallsAs deskExtensions group method := by
  have hx : .entityExtensions deskExtensions ∈
      definitions (assemble deskSamples ⟨[]⟩) [(deskGroup, [])] := by
    rw [assemble_deskSamples]
    exact mem_entityExtensions.2 ⟨_, List.mem_cons_self, by decide +kernel⟩
  exact ⟨_, generate_deskSamples, hx,
    extension_calls_as_group _ _ _ _ generate_deskSamples deskExtensions hx⟩

end GeneratedModel

end HomeHub
