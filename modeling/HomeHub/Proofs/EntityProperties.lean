import HomeHub.Proofs.Coherence
import Mathlib.Data.List.Permutation

/-!
# The entities of samples in a model

A model that is generated from samples has one property for each of them. It stands in the
aggregator of the domain that the sample is filed under, which the root lists once, and it has the
type of the group that the sample falls into.
-/

namespace HomeHub

namespace TypeDefinition

def domainEntities? : TypeDefinition → Option DomainAggregator
  | .domainEntities d => some d
  | _ => none

def rootEntities? : TypeDefinition → Option RootAggregator
  | .rootEntities d => some d
  | _ => none

end TypeDefinition

namespace GeneratedModel

def aggregators (model : GeneratedModel) : List DomainAggregator :=
  model.types.filterMap TypeDefinition.domainEntities?

def properties (model : GeneratedModel) : List EntityProperty :=
  model.aggregators.flatMap DomainAggregator.entities

def entityMembers (model : GeneratedModel) : List AggregatorMember :=
  (model.types.filterMap TypeDefinition.rootEntities?).flatMap RootAggregator.members

def isNumeric? (model : GeneratedModel) (name : String) : Option Bool :=
  ((model.find? name).bind TypeDefinition.entity?).map EntityType.numeric

/-- The model reaches each of the samples by one property, from the root through its domain. -/
structure Reaches (model : GeneratedModel) (samples : List EntitySample) (options : SchemaOptions) :
    Prop where
  /-- As many properties of an id and a flag as there are samples. -/
  properties : (model.properties.map fun property =>
      (property.entityId, model.isNumeric? property.entityType)).Perm
    (samples.map fun sample => (sample.entityId, some (options.isNumeric sample)))
  domains : (model.aggregators.map DomainAggregator.domain).Nodup
  nonempty : ∀ aggregator ∈ model.aggregators, aggregator.entities ≠ []
  filed : ∀ aggregator ∈ model.aggregators, ∀ property ∈ aggregator.entities,
    EntityId.groupingDomain property.entityId = aggregator.domain
  rooted : ∀ aggregator ∈ model.aggregators, model.entityMembers.countP
    (fun member => model.find? member.typeName == some (.domainEntities aggregator)) = 1

section
variable {schemas : List EntitySchema} {services : List (ServiceGroup × List FieldRecord)}

theorem aggregators_definitions : aggregators ⟨definitions schemas services⟩ =
    DomainAggregator.ofSchemas schemas := by
  simp [aggregators, definitions, List.filterMap_append, List.filterMap_cons, List.filterMap_map,
    Function.comp_def, TypeDefinition.domainEntities?]

theorem entityMembers_definitions : entityMembers ⟨definitions schemas services⟩ =
    (DomainAggregator.ofSchemas schemas).map DomainAggregator.rootMember := by
  simp [entityMembers, definitions, List.filterMap_append, List.filterMap_cons, List.filterMap_map,
    Function.comp_def, TypeDefinition.rootEntities?]

end

end GeneratedModel

-- ---------------------------------------------------------------------------
-- Aggregators and schemas
-- ---------------------------------------------------------------------------

def EntitySchema.typedEntities (schemas : List EntitySchema) (schema : EntitySchema) :
    List (String × String) :=
  schema.entities.map fun entity => (entity.entityId, (schema.entityType schemas).name)

namespace DomainAggregator

theorem ofEntities_perm (domain : String) (entities : List (String × String)) :
    ((ofEntities domain entities).entities.map fun property =>
      (property.entityId, property.entityType)).Perm entities := by
  refine ((Text.sortedByBoth_perm _ _ _).map _).trans (.of_eq ?_)
  rw [← List.map_uncurry_zip_eq_zipWith, List.map_map]
  exact List.map_fst_zip (by simp [Naming.length_dedupe])

theorem ofSchemas_eq (schemas : List EntitySchema) : ofSchemas schemas =
    (Text.ascending (schemas.map EntitySchema.domain)).map fun domain => ofEntities domain
      ((schemas.filter (·.domain == domain)).flatMap (EntitySchema.typedEntities schemas)) := rfl

theorem mem_ofSchemas {schemas : List EntitySchema} {aggregator : DomainAggregator} :
    aggregator ∈ ofSchemas schemas ↔ ∃ schema ∈ schemas, aggregator = ofEntities schema.domain
      ((schemas.filter (·.domain == schema.domain)).flatMap
        (EntitySchema.typedEntities schemas)) := by
  simp only [ofSchemas_eq, List.mem_map, Text.mem_ascending, exists_exists_and_eq_and]
  exact exists_congr fun schema => and_congr_right fun _ => eq_comm

theorem domains_ofSchemas (schemas : List EntitySchema) :
    (ofSchemas schemas).map domain = Text.ascending (schemas.map EntitySchema.domain) := by
  simp [ofSchemas, Function.comp_def, ofEntities]

theorem ofSchemas_perm (schemas : List EntitySchema) :
    (((ofSchemas schemas).flatMap entities).map fun property =>
      (property.entityId, property.entityType)).Perm
      (schemas.flatMap (EntitySchema.typedEntities schemas)) := by
  have hdomains : ∀ schema ∈ schemas,
      schema.domain ∈ Text.ascending (schemas.map EntitySchema.domain) :=
    fun schema hs => Text.mem_ascending.2 (List.mem_map_of_mem hs)
  rw [ofSchemas_eq, List.flatMap_map, List.map_flatMap]
  -- within a domain the order changes, and schemas that are taken domain by domain are all taken
  refine (List.Perm.flatMap_left _ fun domain _ => ofEntities_perm domain _).trans ?_
  exact .trans (.of_eq List.flatMap_assoc.symm)
    ((flatMap_filter_perm (Text.nodup_ascending _) hdomains).flatMap_right _)

theorem entities_ne_nil {schemas : List EntitySchema} (h : ∀ schema ∈ schemas, schema.entities ≠ [])
    {aggregator : DomainAggregator} (ha : aggregator ∈ ofSchemas schemas) :
    aggregator.entities ≠ [] := by
  obtain ⟨schema, hs, rfl⟩ := mem_ofSchemas.1 ha
  obtain ⟨entity, he⟩ := List.exists_mem_of_ne_nil _ (h schema hs)
  intro hn
  have hperm := ofEntities_perm schema.domain
    ((schemas.filter (·.domain == schema.domain)).flatMap (EntitySchema.typedEntities schemas))
  rw [hn, List.map_nil, List.nil_perm] at hperm
  have hnone := List.flatMap_eq_nil_iff.1 hperm schema (List.mem_filter.2 ⟨hs, beq_self_eq_true _⟩)
  exact List.ne_nil_of_mem he (List.map_eq_nil_iff.1 hnone)

end DomainAggregator

theorem typedSamples_perm (samples : List EntitySample) (options : SchemaOptions) :
    ((assemble samples options).flatMap fun schema =>
      schema.entities.map fun entity => (entity.entityId, some schema.isNumeric)).Perm
      (samples.map fun sample => (sample.entityId, some (options.isNumeric sample))) := by
  have hflags : ((assemble samples options).flatMap fun schema =>
      schema.entities.map fun entity => (entity.entityId, some schema.isNumeric)) =
      ((assemble samples options).flatMap EntitySchema.entities).map fun sample =>
        (sample.entityId, some (options.isNumeric sample)) := by
    rw [List.map_flatMap]
    refine List.flatMap_congr fun schema hs => List.map_congr_left fun entity he => ?_
    rw [((of_mem_assemble hs).2 entity he).2]
  rw [hflags]
  exact (entities_assemble_perm samples options).map _

namespace GeneratedModel

/-- Every sample is reached once, under its domain and with the type of its group. -/
theorem reaches_of_generate_eq_ok (samples : List EntitySample) (options : SchemaOptions)
    (catalog : List ServiceDomain) (model : GeneratedModel)
    (h : generate (assemble samples options) catalog = .ok model) :
    model.Reaches samples options := by
  obtain ⟨services, hg, hc⟩ := bind_eq_ok.1 h
  obtain ⟨hnames, -, rfl⟩ := check_eq_ok.1 hc
  generalize hschemas : assemble samples options = schemas at *
  have hdomains : ((DomainAggregator.ofSchemas schemas).map DomainAggregator.domain).Nodup :=
    DomainAggregator.domains_ofSchemas schemas ▸ Text.nodup_ascending _
  have hfind {aggregator : DomainAggregator}
      (ha : aggregator ∈ DomainAggregator.ofSchemas schemas) :
      find? ⟨definitions schemas services⟩ aggregator.name = some (.domainEntities aggregator) :=
    find?_of_mem hnames (mem_domainEntities.2 ha)
  have hnumeric {schema : EntitySchema} (hs : schema ∈ schemas) :
      isNumeric? ⟨definitions schemas services⟩ (schema.entityType schemas).name =
        some schema.isNumeric := by
    have hf : find? ⟨definitions schemas services⟩ (schema.entityType schemas).name = _ :=
      find?_of_mem hnames (mem_entity.2 ⟨schema, hs, rfl⟩)
    rw [isNumeric?, hf]
    rfl
  constructor
  case properties =>
    have hperm := (DomainAggregator.ofSchemas_perm schemas).map fun typed =>
      (typed.1, isNumeric? ⟨definitions schemas services⟩ typed.2)
    rw [List.map_map] at hperm
    rw [GeneratedModel.properties, aggregators_definitions]
    refine hperm.trans (.trans (.of_eq ?_) (hschemas ▸ typedSamples_perm samples options))
    rw [List.map_flatMap]
    refine List.flatMap_congr fun schema hs => ?_
    rw [EntitySchema.typedEntities, List.map_map]
    exact List.map_congr_left fun entity _ => congrArg (Prod.mk _) (hnumeric hs)
  case domains => rwa [aggregators_definitions]
  case nonempty =>
    rw [aggregators_definitions]
    exact fun aggregator => DomainAggregator.entities_ne_nil fun schema hs =>
      (of_mem_assemble (hschemas ▸ hs)).1
  case filed =>
    rw [aggregators_definitions]
    intro aggregator ha property hp
    obtain ⟨schema, hs, entity, he, hd, hid, -⟩ := DomainAggregator.exists_entity ha hp
    rw [← hd, hid]
    exact ((of_mem_assemble (hschemas ▸ hs)).2 entity he).1
  case rooted =>
    rw [aggregators_definitions]
    intro aggregator ha
    -- a member leads to the aggregator that it was made for
    rw [entityMembers_definitions, List.countP_map,
      ← List.count_eq_one_of_mem hdomains.of_map ha, List.count]
    refine List.countP_congr fun other ho => ?_
    simp [DomainAggregator.rootMember, hfind ho]

def crowdedSamples : List EntitySample := [
  ⟨"sensor.power", none, [(EntitySample.unitOfMeasurement, .string "W")]⟩,
  ⟨"light", none, []⟩,
  ⟨"sensor.power", none, []⟩]

def crowdedSchemas : List EntitySchema := [
  ⟨"light", false, [⟨"light", none, []⟩], []⟩,
  ⟨"sensor", false, [⟨"sensor.power", none, []⟩], []⟩,
  ⟨"sensor", true, [⟨"sensor.power", none, [(EntitySample.unitOfMeasurement, .string "W")]⟩],
    [⟨EntitySample.unitOfMeasurement, .string⟩]⟩]

theorem assemble_crowdedSamples : assemble crowdedSamples ⟨[]⟩ = crowdedSchemas := by cbv

theorem ofSchemas_crowdedSchemas : DomainAggregator.ofSchemas crowdedSchemas = [
    ⟨"LightEntities", "light", [⟨"Light", "light", "LightEntity"⟩]⟩,
    ⟨"SensorEntities", "sensor", [⟨"Power_0", "sensor.power", "SensorEntity"⟩,
      ⟨"Power_1", "sensor.power", "NumericSensorEntity"⟩]⟩] := by
  have hdomains : Text.ascending (crowdedSchemas.map EntitySchema.domain) =
      ["light", "sensor"] := by decide +kernel
  have hlight : (crowdedSchemas.filter (·.domain == "light")).flatMap
      (EntitySchema.typedEntities crowdedSchemas) = [("light", "LightEntity")] := by decide +kernel
  have hsensor : (crowdedSchemas.filter (·.domain == "sensor")).flatMap
      (EntitySchema.typedEntities crowdedSchemas) =
        [("sensor.power", "SensorEntity"), ("sensor.power", "NumericSensorEntity")] := by
    decide +kernel
  rw [DomainAggregator.ofSchemas_eq, hdomains, List.map_cons, List.map_cons, List.map_nil, hlight,
    hsensor, DomainAggregator.ofEntities, DomainAggregator.ofEntities,
    Text.sortedByBoth_of_pairwise (by decide +kernel),
    Text.sortedByBoth_of_pairwise (by decide +kernel)]
  decide +kernel

theorem reaches_crowdedSamples : ∃ model,
    generate (assemble crowdedSamples ⟨[]⟩) [] = .ok model ∧ model.Reaches crowdedSamples ⟨[]⟩ := by
  have hservices : ServiceDomain.groups [] = .ok [] := by decide +kernel
  have hcheck : (check (definitions crowdedSchemas [])).isOk = true := by
    unfold definitions
    rw [ofSchemas_crowdedSchemas]
    decide +kernel
  cases h : check (definitions crowdedSchemas []) with
  | error error => rw [h] at hcheck; cases hcheck
  | ok model =>
    have hmodel : generate (assemble crowdedSamples ⟨[]⟩) [] = .ok model := by
      rw [assemble_crowdedSamples]
      exact bind_eq_ok.2 ⟨[], hservices, h⟩
    exact ⟨model, hmodel, reaches_of_generate_eq_ok _ _ _ _ hmodel⟩

end GeneratedModel

end HomeHub
