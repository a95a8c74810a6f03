import HomeHub.Proofs.CatalogOrder
import HomeHub.Proofs.EntityProperties

/-!
# The order of the input

A model does not tell in which order samples came, or entries, services and fields of a catalog
that are told apart by their names. Samples under one id may stand in any order in a schema: of the
samples themselves a model is made of the ids only.
-/

namespace HomeHub

-- ---------------------------------------------------------------------------
-- Types of attributes
-- ---------------------------------------------------------------------------

namespace AttributeType

/-- Some of the observations tell a kind, and all that do tell this one. -/
structure IsAgreed (type : AttributeType) (observations : List Json.Value) : Prop where
  told : ∃ value ∈ observations, of? value = some type
  alone : ∀ value ∈ observations, ∀ kind, of? value = some kind → kind = type

theorem IsAgreed.unique {type other : AttributeType} {observations : List Json.Value}
    (h : type.IsAgreed observations) (ho : other.IsAgreed observations) : type = other := by
  obtain ⟨value, hm, hk⟩ := h.told
  exact ho.alone value hm type hk

theorem IsAgreed.of_perm {type : AttributeType} {observations others : List Json.Value}
    (h : type.IsAgreed observations) (hp : observations.Perm others) : type.IsAgreed others := by
  obtain ⟨value, hm, hk⟩ := h.told
  exact ⟨⟨value, hp.mem_iff.1 hm, hk⟩, fun value hm => h.alone value (hp.mem_iff.2 hm)⟩

theorem infer_cases (observations : List Json.Value) :
    (infer observations).IsAgreed observations ∨
      (¬ ∃ type : AttributeType, type.IsAgreed observations) ∧ infer observations = .anything := by
  unfold infer
  split
  · rename_i hn
    refine .inr ⟨?_, rfl⟩
    rintro ⟨type, ⟨value, hm, hk⟩, -⟩
    exact absurd (hn ▸ List.mem_filterMap.2 ⟨value, hm, hk⟩) List.not_mem_nil
  · rename_i first rest hf
    obtain ⟨value, hm, hk⟩ := List.mem_filterMap.1 (hf ▸ List.mem_cons_self : first ∈ _)
    split
    · rename_i hall
      refine .inl ⟨⟨value, hm, hk⟩, fun other ho kind hkind => ?_⟩
      rcases List.mem_cons.1 (hf ▸ List.mem_filterMap.2 ⟨other, ho, hkind⟩) with rfl | hr
      · rfl
      · exact eq_of_beq (List.all_eq_true.1 hall kind hr)
    · rename_i hall
      refine .inr ⟨?_, rfl⟩
      rintro ⟨type, -, halone⟩
      refine hall (List.all_eq_true.2 fun kind hr => beq_iff_eq.2 ?_)
      obtain ⟨other, ho, hkind⟩ := List.mem_filterMap.1 (hf ▸ List.mem_cons_of_mem _ hr : kind ∈ _)
      exact (halone other ho kind hkind).trans (halone value hm first hk).symm

theorem infer_eq_of_perm {observations others : List Json.Value} (h : observations.Perm others) :
    infer observations = infer others := by
  rcases infer_cases observations with ha | ⟨hn, ha⟩ <;>
    rcases infer_cases others with hb | ⟨hm, hb⟩
  · exact (ha.of_perm h).unique hb
  · exact absurd ⟨_, ha.of_perm h⟩ hm
  · exact absurd ⟨_, hb.of_perm h.symm⟩ hn
  · rw [ha, hb]

end AttributeType

-- ---------------------------------------------------------------------------
-- Schemas
-- ---------------------------------------------------------------------------

namespace EntitySchema

/-- What is left of a schema when its samples are known by their ids only. -/
def outline (schema : EntitySchema) : EntitySchema :=
  { schema with entities := schema.entities.map fun entity => ⟨entity.entityId, none, []⟩ }

theorem outline_ofMembers_eq_of_perm (domain : String) (flag : Bool)
    {samples others : List EntitySample} (h : samples.Perm others) :
    (ofMembers domain flag samples).outline = (ofMembers domain flag others).outline := by
  have hids := Text.map_sortedBy_eq_of_perm EntitySample.entityId h
  have hkeys : attributeKeys samples = attributeKeys others :=
    Text.ascending_congr fun key => (h.flatMap_right _).mem_iff
  have htypes (key : String) : AttributeType.infer (observations samples key) =
      AttributeType.infer (observations others key) :=
    AttributeType.infer_eq_of_perm (h.filterMap _)
  have hentities := congrArg (List.map fun id => EntitySample.mk id none []) hids
  rw [List.map_map, List.map_map] at hentities
  simp only [outline, ofMembers, hkeys, htypes]
  exact congrArg (EntitySchema.mk domain flag · _) hentities

section
variable (schemas : List EntitySchema)

theorem isMixed_outline (domain : String) :
    isMixed (schemas.map outline) domain = isMixed schemas domain := by
  simp only [isMixed, List.any_map]
  rfl

theorem baseName_outline (schema : EntitySchema) :
    schema.outline.baseName (schemas.map outline) = schema.baseName schemas := by
  simp only [baseName, isMixed_outline]
  rfl

theorem entityType_outline (schema : EntitySchema) :
    schema.outline.entityType (schemas.map outline) = schema.entityType schemas := by
  simp only [entityType, baseName_outline]
  rfl

theorem attributeRecord_outline (schema : EntitySchema) :
    schema.outline.attributeRecord (schemas.map outline) = schema.attributeRecord schemas := by
  simp only [attributeRecord, baseName_outline]
  rfl

theorem typedEntities_outline (schema : EntitySchema) :
    schema.outline.typedEntities (schemas.map outline) = schema.typedEntities schemas := by
  simp only [typedEntities, entityType_outline]
  exact List.map_map

theorem ofSchemas_outline :
    DomainAggregator.ofSchemas (schemas.map outline) = DomainAggregator.ofSchemas schemas := by
  simp only [DomainAggregator.ofSchemas_eq, List.map_map, List.filter_map, List.flatMap_map,
    typedEntities_outline]
  rfl

end

end EntitySchema

theorem group?_outline_eq_of_perm {samples others : List EntitySample} (options : SchemaOptions)
    (h : samples.Perm others) (domain : String) (flag : Bool) :
    (group? samples options domain flag).map EntitySchema.outline =
      (group? others options domain flag).map EntitySchema.outline := by
  have hmembers : (membersOf samples options domain flag).Perm
      (membersOf others options domain flag) := h.filter _
  unfold group?
  split
  · rename_i hn
    rw [hn, List.nil_perm] at hmembers
    rw [hmembers]
  · split
    · rename_i hn
      rw [hn, List.perm_nil] at hmembers
      contradiction
    · exact congrArg some (EntitySchema.outline_ofMembers_eq_of_perm domain flag hmembers)

theorem assemble_outline_eq_of_perm {samples others : List EntitySample} (options : SchemaOptions)
    (h : samples.Perm others) :
    (assemble samples options).map EntitySchema.outline =
      (assemble others options).map EntitySchema.outline := by
  have hdomains : Text.ascending (samples.map EntitySample.domain) =
      Text.ascending (others.map EntitySample.domain) :=
    Text.ascending_congr fun domain => (h.map _).mem_iff
  simp only [assemble_eq, hdomains, List.map_flatMap, List.map_filterMap,
    group?_outline_eq_of_perm options h]

namespace GeneratedModel

theorem definitions_outline (schemas : List EntitySchema)
    (services : List (ServiceGroup × List FieldRecord)) :
    definitions (schemas.map EntitySchema.outline) services = definitions schemas services := by
  simp only [definitions, EntitySchema.ofSchemas_outline, List.map_map, Function.comp_def,
    EntitySchema.entityType_outline, EntitySchema.attributeRecord_outline]

/-- Of samples a model is made of their ids, and of what their schemas say. -/
theorem generate_outline (schemas : List EntitySchema) (catalog : List ServiceDomain) :
    generate (schemas.map EntitySchema.outline) catalog = generate schemas catalog := by
  simp only [generate, definitions_outline]

/-- Whether a model is generated, which one, and which problem is reported if none is: nothing of
this depends on the order of samples, or on that of a catalog with distinct names. -/
theorem generate_eq_of_reordered (samples : List EntitySample) (options : SchemaOptions)
    (catalog : List ServiceDomain) :
    (∀ others : List EntitySample, samples.Perm others →
      generate (assemble samples options) catalog = generate (assemble others options) catalog) ∧
    (∀ other : List ServiceDomain, ServiceDomain.IsDistinct catalog →
      ServiceDomain.ReordersCatalog catalog other →
      generate (assemble samples options) catalog = generate (assemble samples options) other) := by
  constructor
  · intro others h
    calc generate (assemble samples options) catalog
      _ = generate ((assemble samples options).map EntitySchema.outline) catalog :=
        (generate_outline _ catalog).symm
      _ = generate ((assemble others options).map EntitySchema.outline) catalog := by
        rw [assemble_outline_eq_of_perm options h]
      _ = generate (assemble others options) catalog := generate_outline _ catalog
  · intro other hd h
    rw [generate, generate, ServiceDomain.groups_eq_of_reorders h hd]

def disputedSamples : List EntitySample := [
  ⟨"light.lamp", none, [("effect", .string "rainbow")]⟩,
  ⟨"light.lamp", none, [("effect", .bool true)]⟩]

def brightness : ServiceField := ⟨"brightness", some "number", false, none⟩

def flash : ServiceField := ⟨"flash", some "strobe", false, none⟩

def mixedCatalog : List ServiceDomain := [
  ⟨"light", [⟨"turn_on", none, [brightness, flash]⟩, ⟨"toggle", none, []⟩]⟩,
  ⟨"fan", [⟨"toggle", none, []⟩]⟩]

def backwardCatalog : List ServiceDomain := [
  ⟨"fan", [⟨"toggle", none, []⟩]⟩,
  ⟨"light", [⟨"toggle", none, []⟩, ⟨"turn_on", none, [flash, brightness]⟩]⟩]

theorem generate_backward :
    generate (assemble disputedSamples ⟨[]⟩) mixedCatalog =
      generate (assemble disputedSamples.reverse ⟨[]⟩) mixedCatalog ∧
    generate (assemble disputedSamples ⟨[]⟩) mixedCatalog =
      generate (assemble disputedSamples ⟨[]⟩) backwardCatalog := by
  have hdistinct : ServiceDomain.IsDistinct mixedCatalog := by
    constructor
    · decide
    · rintro entry (_ | ⟨_, _ | ⟨_, ⟨⟩⟩⟩) <;> constructor <;>
        simp [Service.HasDistinctFields, brightness, flash]
  have hservice (service : Service) : service.Reorders service := ⟨rfl, rfl, .refl _⟩
  have hfan : ServiceDomain.Reorders ⟨"fan", [⟨"toggle", none, []⟩]⟩
      ⟨"fan", [⟨"toggle", none, []⟩]⟩ := ⟨rfl, _, .refl _, .cons (hservice _) .nil⟩
  have hlight : ServiceDomain.Reorders
      ⟨"light", [⟨"turn_on", none, [brightness, flash]⟩, ⟨"toggle", none, []⟩]⟩
      ⟨"light", [⟨"toggle", none, []⟩, ⟨"turn_on", none, [flash, brightness]⟩]⟩ :=
    ⟨rfl, _, .swap _ _ [], .cons (hservice _) (.cons ⟨rfl, rfl, .swap _ _ []⟩ .nil)⟩
  have hreorders : ServiceDomain.ReordersCatalog mixedCatalog backwardCatalog :=
    ⟨_, .swap _ _ [], .cons hfan (.cons hlight .nil)⟩
  obtain ⟨hsamples, hcatalog⟩ := generate_eq_of_reordered disputedSamples ⟨[]⟩ mixedCatalog
  exact ⟨hsamples _ (List.reverse_perm _).symm, hcatalog _ hdistinct hreorders⟩

end GeneratedModel

end HomeHub
