import HomeHub.Proofs.Lists
import HomeHub.Proofs.TypeNames

/-!
# Coherent models

A model that is generated hangs together: names are distinct, whatever is mentioned by name is found
and is of the kind and owner that the place asks for, and what belongs to something else is mentioned
there once.
-/

namespace HomeHub

namespace TypeDefinition

def entity? : TypeDefinition → Option EntityType
  | .entity d => some d
  | _ => none

def serviceGroup? : TypeDefinition → Option ServiceGroup
  | .serviceGroup d => some d
  | _ => none

def extensions? : TypeDefinition → Option EntityExtensions
  | .entityExtensions d => some d
  | _ => none

/-- The name of a definition that a host can be handed: a root, or the aggregator or group of a
domain. -/
def injectable? : TypeDefinition → Option String
  | .rootEntities d => some d.name
  | .domainEntities d => some d.name
  | .rootServices d => some d.name
  | .serviceGroup d => some d.name
  | _ => none

end TypeDefinition

namespace GeneratedModel

def entityTypes (model : GeneratedModel) : List EntityType :=
  model.types.filterMap TypeDefinition.entity?

def methods (model : GeneratedModel) : List ServiceMethod :=
  (model.types.filterMap TypeDefinition.serviceGroup?).flatMap ServiceGroup.methods

def extensionsOf (model : GeneratedModel) (domain : String) : List EntityExtensions :=
  (model.types.filterMap TypeDefinition.extensions?).filter (·.domain == domain)

def HasParameters (model : GeneratedModel) (domain : String) (method : ServiceMethod) : Prop :=
  ∀ name, method.parameters = some name → ∃ record,
    model.find? name = some (.serviceParameters record) ∧ record.origin = method.qualifiedName domain

def HasEntity (model : GeneratedModel) (domain name : String) : Prop :=
  ∃ entity, model.find? name = some (.entity entity) ∧ entity.domain = domain

structure IsCoherent (model : GeneratedModel) : Prop where
  names : model.typeNames.Nodup
  members : ∀ definition ∈ model.types, definition.memberIdentifiers.Nodup
  rootEntities : ∀ root, .rootEntities root ∈ model.types → ∀ member ∈ root.members,
    ∃ aggregator, model.find? member.typeName = some (.domainEntities aggregator) ∧
      aggregator.domain = member.domain
  rootServices : ∀ root, .rootServices root ∈ model.types → ∀ member ∈ root.members,
    ∃ group, model.find? member.typeName = some (.serviceGroup group) ∧ group.domain = member.domain
  properties : ∀ aggregator, .domainEntities aggregator ∈ model.types →
    ∀ property ∈ aggregator.entities, model.HasEntity aggregator.domain property.entityType
  attributes : ∀ entity, .entity entity ∈ model.types →
    ∃ record, model.find? entity.attributes = some (.attributeRecord record) ∧
      record.origin = if entity.numeric then entity.domain ++ " (numeric)" else entity.domain
  parameters : ∀ group, .serviceGroup group ∈ model.types →
    ∀ method ∈ group.methods, model.HasParameters group.domain method
  extensionParameters : ∀ extensions, .entityExtensions extensions ∈ model.types →
    ∀ method ∈ extensions.methods, model.HasParameters extensions.domain method
  extensionEntities : ∀ extensions, .entityExtensions extensions ∈ model.types →
    ∀ name ∈ extensions.entityTypes, model.HasEntity extensions.domain name
  /-- An entity type of a domain with services is listed once in the one extension of its domain. -/
  listed : ∀ entity group, .entity entity ∈ model.types → .serviceGroup group ∈ model.types →
    group.domain = entity.domain → ∃ extensions, model.extensionsOf entity.domain = [extensions] ∧
      extensions.entityTypes.count entity.name = 1
  attributesOnce : ∀ record, .attributeRecord record ∈ model.types →
    (model.entityTypes.map EntityType.attributes).count record.name = 1
  parametersOnce : ∀ record, .serviceParameters record ∈ model.types →
    (model.methods.filterMap ServiceMethod.parameters).count record.name = 1
  /-- The registration lists what a host can be handed, in the order of the model. -/
  registration : ∀ registration, .registration registration ∈ model.types →
    registration.injectable = model.types.filterMap TypeDefinition.injectable?

theorem find?_of_mem {model : GeneratedModel} (h : model.typeNames.Nodup)
    {definition : TypeDefinition} (hm : definition ∈ model.types) :
    model.find? definition.name = some definition := by
  unfold typeNames at h
  unfold find?
  generalize model.types = types at h hm
  induction types with
  | nil => simp at hm
  | cons first rest ih =>
    obtain ⟨hf, hr⟩ := List.nodup_cons.1 h
    rcases List.mem_cons.1 hm with rfl | hm
    · simp
    · have hne : first.name ≠ definition.name := fun heq => hf (heq ▸ List.mem_map_of_mem hm)
      rw [List.find?_cons_of_neg (by simpa using hne)]
      exact ih hr hm

-- ---------------------------------------------------------------------------
-- The definitions of each kind
-- ---------------------------------------------------------------------------

section
variable {schemas : List EntitySchema} {services : List (ServiceGroup × List FieldRecord)}

theorem mem_rootEntities {root : RootAggregator} : .rootEntities root ∈ definitions schemas services ↔
    root = ⟨RootAggregator.entitiesName,
      (DomainAggregator.ofSchemas schemas).map DomainAggregator.rootMember⟩ := by
  simp [definitions]

theorem mem_rootServices {root : RootAggregator} : .rootServices root ∈ definitions schemas services ↔
    root = ⟨RootAggregator.servicesName, (services.map (·.1)).map ServiceGroup.rootMember⟩ := by
  simp [definitions]

theorem mem_domainEntities {aggregator : DomainAggregator} :
    .domainEntities aggregator ∈ definitions schemas services ↔
      aggregator ∈ DomainAggregator.ofSchemas schemas := by
  simp [definitions]

theorem mem_entity {entity : EntityType} : .entity entity ∈ definitions schemas services ↔
    ∃ schema ∈ schemas, schema.entityType schemas = entity := by
  simp [definitions]

theorem mem_attributeRecord {record : FieldRecord} :
    .attributeRecord record ∈ definitions schemas services ↔
      ∃ schema ∈ schemas, schema.attributeRecord schemas = record := by
  simp [definitions]

theorem mem_serviceGroup {group : ServiceGroup} : .serviceGroup group ∈ definitions schemas services ↔
    ∃ result ∈ services, result.1 = group := by
  simp [definitions]

theorem mem_serviceParameters {record : FieldRecord} :
    .serviceParameters record ∈ definitions schemas services ↔ record ∈ services.flatMap (·.2) := by
  simp [definitions]

theorem mem_entityExtensions {extensions : EntityExtensions} :
    .entityExtensions extensions ∈ definitions schemas services ↔ ∃ result ∈ services,
      result.1.extensions? (schemas.map (EntitySchema.entityType schemas)) = some extensions := by
  simp [definitions]

theorem mem_registration {registration : Registration} :
    .registration registration ∈ definitions schemas services ↔ registration = ⟨registrationName,
      RootAggregator.entitiesName :: (DomainAggregator.ofSchemas schemas).map DomainAggregator.name ++
        RootAggregator.servicesName :: (services.map (·.1)).map ServiceGroup.name⟩ := by
  simp [definitions]

theorem entityTypes_definitions : entityTypes ⟨definitions schemas services⟩ =
    schemas.map (EntitySchema.entityType schemas) := by
  simp [entityTypes, definitions, List.filterMap_append, List.filterMap_cons, List.filterMap_map,
    Function.comp_def, TypeDefinition.entity?]

theorem methods_definitions : methods ⟨definitions schemas services⟩ =
    services.flatMap (·.1.methods) := by
  simp [methods, definitions, List.filterMap_append, List.filterMap_cons, List.filterMap_map,
    Function.comp_def, TypeDefinition.serviceGroup?, List.flatMap_map]

theorem extensionsOf_definitions (domain : String) : extensionsOf ⟨definitions schemas services⟩ domain =
    ((services.map (·.1)).filterMap (ServiceGroup.extensions?
      (schemas.map (EntitySchema.entityType schemas)))).filter (·.domain == domain) := by
  simp [extensionsOf, definitions, List.filterMap_append, List.filterMap_cons, List.filterMap_map,
    Function.comp_def, TypeDefinition.extensions?]

theorem injectable_definitions : (definitions schemas services).filterMap TypeDefinition.injectable? =
    RootAggregator.entitiesName :: (DomainAggregator.ofSchemas schemas).map DomainAggregator.name ++
      RootAggregator.servicesName :: (services.map (·.1)).map ServiceGroup.name := by
  simp [definitions, List.filterMap_append, List.filterMap_cons, List.filterMap_map, Function.comp_def,
    TypeDefinition.injectable?]

end

end GeneratedModel

-- ---------------------------------------------------------------------------
-- Properties and extensions
-- ---------------------------------------------------------------------------

theorem DomainAggregator.mem_zip_of_mem_ofEntities {domain : String}
    {entities : List (String × String)} {property : EntityProperty}
    (h : property ∈ (ofEntities domain entities).entities) :
    ((property.entityId, property.entityType), property.identifier) ∈
      entities.zip (Naming.dedupe (entities.map fun (id, _) =>
        ⟨Naming.resolve (propertyKey id) Naming.entityMark, id⟩)) := by
  have hm := (Text.sortedByBoth_perm _ _ _).mem_iff.1 h
  rw [← List.map_uncurry_zip_eq_zipWith] at hm
  obtain ⟨pair, hp, rfl⟩ := List.mem_map.1 hm
  exact hp

theorem DomainAggregator.exists_entity {schemas : List EntitySchema} {aggregator : DomainAggregator}
    (h : aggregator ∈ ofSchemas schemas) {property : EntityProperty}
    (hp : property ∈ aggregator.entities) : ∃ schema ∈ schemas, ∃ entity ∈ schema.entities,
      schema.domain = aggregator.domain ∧ property.entityId = entity.entityId ∧
        property.entityType = (schema.entityType schemas).name := by
  obtain ⟨domain, -, rfl⟩ := List.mem_map.1 h
  obtain ⟨schema, hs, hm⟩ := List.mem_flatMap.1
    (List.of_mem_zip (mem_zip_of_mem_ofEntities hp)).1
  obtain ⟨hs, hd⟩ := List.mem_filter.1 hs
  obtain ⟨entity, he, heq⟩ := List.mem_map.1 hm
  exact ⟨schema, hs, entity, he, eq_of_beq hd, (Prod.mk.inj heq).1.symm, (Prod.mk.inj heq).2.symm⟩

theorem DomainAggregator.exists_schema {schemas : List EntitySchema} {aggregator : DomainAggregator}
    (h : aggregator ∈ ofSchemas schemas) {property : EntityProperty}
    (hp : property ∈ aggregator.entities) : ∃ schema ∈ schemas,
      schema.domain = aggregator.domain ∧ property.entityType = (schema.entityType schemas).name := by
  obtain ⟨schema, hs, _, -, hd, -, ht⟩ := exists_entity h hp
  exact ⟨schema, hs, hd, ht⟩

theorem ServiceGroup.extensions?_eq_some {entityTypes : List EntityType} {group : ServiceGroup}
    {extensions : EntityExtensions} : group.extensions? entityTypes = some extensions ↔
      entityTypes.any (·.domain == group.domain) = true ∧
        extensions = ⟨Naming.domainName group.domain ++ "EntityExtensions", group.domain,
          (entityTypes.filter (·.domain == group.domain)).map EntityType.name, group.methods⟩ := by
  have hany : entityTypes.any (·.domain == group.domain) = true ↔
      (entityTypes.filter (·.domain == group.domain)).map EntityType.name ≠ [] := by
    simp [List.filter_eq_nil_iff]
  rw [hany]
  unfold extensions?
  split
  · rename_i hn
    simp [hn]
  · rename_i hn
    exact ⟨fun h => ⟨hn, (Option.some.inj h).symm⟩, fun h => h.2 ▸ rfl⟩

theorem ServiceGroup.filter_extensions (entityTypes : List EntityType) (groups : List ServiceGroup)
    (domain : String) :
    (groups.filterMap (extensions? entityTypes)).filter (·.domain == domain) =
      (groups.filter (·.domain == domain)).filterMap (extensions? entityTypes) := by
  rw [List.filter_filterMap, List.filterMap_filter]
  refine List.filterMap_congr fun group _ => ?_
  cases hx : group.extensions? entityTypes with
  | none => simp
  | some extensions =>
    obtain ⟨-, rfl⟩ := extensions?_eq_some.1 hx
    by_cases hd : group.domain = domain <;> simp [hd]

namespace GeneratedModel

section
variable {schemas : List EntitySchema} {catalog : List ServiceDomain}
  {services : List (ServiceGroup × List FieldRecord)} {result : ServiceGroup × List FieldRecord}

theorem exists_serviceParameters (hg : ServiceDomain.groups catalog = .ok services)
    (hr : result ∈ services) {method : ServiceMethod} (hm : method ∈ result.1.methods) {name : String}
    (hn : method.parameters = some name) : ∃ record,
      .serviceParameters record ∈ definitions schemas services ∧ record.name = name ∧
        record.origin = method.qualifiedName result.1.domain := by
  obtain ⟨entry, -, he⟩ := mem_of_mapM_eq_ok hg hr
  obtain ⟨record, hrecord, hname, ho⟩ := ServiceDomain.exists_record_of_group_eq_ok he hm hn
  exact ⟨record, mem_serviceParameters.2 (List.mem_flatMap.2 ⟨result, hr, hrecord⟩), hname, ho⟩

/-- A domain with entities and services has one extension, which lists its entity types. -/
theorem extensionsOf_eq_singleton (hdomains : ((services.map (·.1)).map ServiceGroup.domain).Nodup)
    (hr : result ∈ services) {schema : EntitySchema} (hs : schema ∈ schemas)
    (hd : result.1.domain = schema.domain) :
    extensionsOf ⟨definitions schemas services⟩ schema.domain =
      [⟨Naming.domainName result.1.domain ++ "EntityExtensions", result.1.domain,
        ((schemas.map (EntitySchema.entityType schemas)).filter
          (·.domain == result.1.domain)).map EntityType.name, result.1.methods⟩] := by
  have hany : (schemas.map (EntitySchema.entityType schemas)).any
      (·.domain == result.1.domain) = true :=
    List.any_eq_true.2 ⟨_, List.mem_map_of_mem hs, beq_iff_eq.2 hd.symm⟩
  rw [← hd, extensionsOf_definitions, ServiceGroup.filter_extensions,
    filter_key_eq hdomains (List.mem_map_of_mem hr),
    List.filterMap_cons_some (ServiceGroup.extensions?_eq_some.2 ⟨hany, rfl⟩), List.filterMap_nil]

end

/-- Whatever is generated hangs together. -/
theorem isCoherent_of_generate_eq_ok (schemas : List EntitySchema) (catalog : List ServiceDomain)
    (model : GeneratedModel) (h : generate schemas catalog = .ok model) : model.IsCoherent := by
  obtain ⟨services, hg, hc⟩ := bind_eq_ok.1 h
  obtain ⟨hnames, hmembers, rfl⟩ := check_eq_ok.1 hc
  have distinct := (nodup_names hg).1 hnames
  have hdomains : ((services.map (·.1)).map ServiceGroup.domain).Nodup := by
    rw [List.map_map]
    exact ServiceDomain.domains_of_groups_eq_ok hg ▸ distinct.groups.of_map
  have appended {stems : List String} (ending : String) (hs : stems.Nodup) :
      (stems.map (· ++ ending)).Nodup := hs.map fun _ _ => (String.append_left_inj ending).1
  have found {definition : TypeDefinition} (hm : definition ∈ definitions schemas services) :
      find? ⟨definitions schemas services⟩ definition.name = some definition :=
    find?_of_mem hnames hm
  have hentity {schema : EntitySchema} (hs : schema ∈ schemas) :
      HasEntity ⟨definitions schemas services⟩ schema.domain (schema.entityType schemas).name :=
    ⟨_, found (mem_entity.2 ⟨schema, hs, rfl⟩), rfl⟩
  have hparameters {result : ServiceGroup × List FieldRecord} (hr : result ∈ services)
      {method : ServiceMethod} (hm : method ∈ result.1.methods) :
      HasParameters ⟨definitions schemas services⟩ result.1.domain method := by
    intro name hn
    obtain ⟨record, hrecord, rfl, ho⟩ := exists_serviceParameters hg hr hm hn
    exact ⟨record, found hrecord, ho⟩
  constructor
  case names => exact hnames
  case members => exact hmembers
  case rootEntities =>
    intro root hroot member hm
    obtain rfl := mem_rootEntities.1 hroot
    obtain ⟨aggregator, ha, rfl⟩ := List.mem_map.1 hm
    exact ⟨aggregator, found (mem_domainEntities.2 ha), rfl⟩
  case rootServices =>
    intro root hroot member hm
    obtain rfl := mem_rootServices.1 hroot
    obtain ⟨group, hgroup, rfl⟩ := List.mem_map.1 hm
    obtain ⟨result, hr, rfl⟩ := List.mem_map.1 hgroup
    exact ⟨result.1, found (mem_serviceGroup.2 ⟨result, hr, rfl⟩), rfl⟩
  case properties =>
    intro aggregator ha property hp
    obtain ⟨schema, hs, hd, ht⟩ := DomainAggregator.exists_schema (mem_domainEntities.1 ha) hp
    exact hd ▸ ht ▸ hentity hs
  case attributes =>
    intro entity he
    obtain ⟨schema, hs, rfl⟩ := mem_entity.1 he
    exact ⟨_, found (mem_attributeRecord.2 ⟨schema, hs, rfl⟩), rfl⟩
  case parameters =>
    intro group hgroup method hm
    obtain ⟨result, hr, rfl⟩ := mem_serviceGroup.1 hgroup
    exact hparameters hr hm
  case extensionParameters =>
    intro extensions hx method hm
    obtain ⟨result, hr, hx⟩ := mem_entityExtensions.1 hx
    obtain ⟨-, rfl⟩ := ServiceGroup.extensions?_eq_some.1 hx
    exact hparameters hr hm
  case extensionEntities =>
    intro extensions hx name hm
    obtain ⟨result, hr, hx⟩ := mem_entityExtensions.1 hx
    obtain ⟨-, rfl⟩ := ServiceGroup.extensions?_eq_some.1 hx
    obtain ⟨_, he, rfl⟩ := List.mem_map.1 hm
    obtain ⟨he, hd⟩ := List.mem_filter.1 he
    obtain ⟨schema, hs, rfl⟩ := List.mem_map.1 he
    exact eq_of_beq hd ▸ hentity hs
  case listed =>
    intro entity group he hgroup hd
    obtain ⟨result, hr, rfl⟩ := mem_serviceGroup.1 hgroup
    obtain ⟨schema, hs, rfl⟩ := mem_entity.1 he
    refine ⟨_, extensionsOf_eq_singleton hdomains hr hs hd, List.count_eq_one_of_mem ?_ ?_⟩
    · have hb := appended "Entity" distinct.bases
      rw [List.map_map] at hb
      refine List.Nodup.sublist (List.filter_sublist.map _) ?_
      rwa [List.map_map]
    · exact List.mem_map_of_mem (List.mem_filter.2 ⟨List.mem_map_of_mem hs, beq_iff_eq.2 hd.symm⟩)
  case attributesOnce =>
    intro record hrecord
    obtain ⟨schema, hs, rfl⟩ := mem_attributeRecord.1 hrecord
    rw [entityTypes_definitions, List.map_map]
    refine List.count_eq_one_of_mem ?_ (List.mem_map_of_mem hs)
    have hb := appended "EntityAttributes" distinct.bases
    rwa [List.map_map] at hb
  case parametersOnce =>
    intro record hrecord
    rw [methods_definitions, ServiceDomain.parameters_of_groups_eq_ok hg]
    refine List.count_eq_one_of_mem ?_ (List.mem_map_of_mem (mem_serviceParameters.1 hrecord))
    rw [ServiceDomain.recordNames_of_groups_eq_ok hg]
    exact appended "Parameters" distinct.parameters
  case registration =>
    intro registration hr
    obtain rfl := mem_registration.1 hr
    exact injectable_definitions.symm

def lampSchemas : List EntitySchema := [
  ⟨"light", false, [⟨"light.lamp", none, []⟩], [⟨"effect", .string⟩]⟩,
  ⟨"sensor", true, [⟨"sensor.power", none, []⟩], []⟩]

def lampCatalog : List ServiceDomain :=
  [⟨"light", [⟨"turn_on", none, [⟨"color", none, false, none⟩]⟩]⟩]

theorem isCoherent_lamps :
    ∃ model, generate lampSchemas lampCatalog = .ok model ∧ model.IsCoherent := by
  have hok : (generate lampSchemas lampCatalog).isOk = true := by decide +kernel
  cases h : generate lampSchemas lampCatalog with
  | error error => rw [h] at hok; cases hok
  | ok model => exact ⟨model, rfl, isCoherent_of_generate_eq_ok _ _ _ h⟩

end GeneratedModel

end HomeHub
