import HomeHub.Proofs.AttributeFit

/-!
# What assembly makes

The schemas of samples are told by what they promise: one a domain and a kind, ascending; in each the
samples that fall into it, by id, and their attributes, by key. There is no second list of schemas that
keeps the same promises.
-/

namespace HomeHub

open Json (Value)

-- ---------------------------------------------------------------------------
-- One group
-- ---------------------------------------------------------------------------

namespace EntitySample

/-- The domain is a numeric one, or the sample has a unit, which may be null. -/
def IsNumeric (options : SchemaOptions) (sample : EntitySample) : Prop :=
  sample.domain ∈ options.numericDomains ∨
    unitOfMeasurement ∈ sample.attributes.map Prod.fst

def FallsInto (options : SchemaOptions) (schema : EntitySchema) (sample : EntitySample) : Prop :=
  sample.domain = schema.domain ∧ (schema.isNumeric = true ↔ sample.IsNumeric options)

instance (options : SchemaOptions) (sample : EntitySample) : Decidable (sample.IsNumeric options) :=
  inferInstanceAs (Decidable (_ ∨ _))

instance (options : SchemaOptions) (schema : EntitySchema) (sample : EntitySample) :
    Decidable (sample.FallsInto options schema) :=
  inferInstanceAs (Decidable (_ ∧ _))

theorem isNumeric_iff {options : SchemaOptions} {sample : EntitySample} :
    options.isNumeric sample = true ↔ sample.IsNumeric options := by
  have hunit : sample.hasUnit = true ↔ unitOfMeasurement ∈ sample.attributes.map Prod.fst :=
    Table.contains_eq_true
  simp only [SchemaOptions.isNumeric, IsNumeric, Bool.or_eq_true, List.contains_iff_mem, hunit]

theorem fallsInto_iff {options : SchemaOptions} {schema : EntitySchema} {sample : EntitySample} :
    sample.FallsInto options schema ↔
      sample.domain = schema.domain ∧ options.isNumeric sample = schema.isNumeric := by
  rw [FallsInto, ← isNumeric_iff, Bool.coe_iff_coe, eq_comm (a := schema.isNumeric)]

end EntitySample

-- ---------------------------------------------------------------------------
-- Types
-- ---------------------------------------------------------------------------

namespace AttributeType

/-- The kind of a value. A null has none, and what holds other values has no scalar kind. -/
inductive IsKindOf : AttributeType → Value → Prop
  | string (text : String) : IsKindOf .string (.string text)
  | number (n : Json.Number) : IsKindOf .number (.number n)
  | boolean (b : Bool) : IsKindOf .boolean (.bool b)
  | array (items : List Value) : IsKindOf .anything (.array items)
  | object (members : List (String × Value)) : IsKindOf .anything (.object members)

/-- Some sample has a value under the key that is not null, and all such values are of one kind. -/
structure IsCommonTo (type : AttributeType) (key : String) (entities : List EntitySample) : Prop where
  told : ∃ sample ∈ entities, ∃ value, List.lookup key sample.attributes = some value ∧ value ≠ .null
  alone : ∀ sample ∈ entities, ∀ value, List.lookup key sample.attributes = some value →
    value ≠ .null → type.IsKindOf value

theorem isKindOf_iff {type : AttributeType} {value : Value} :
    type.IsKindOf value ↔ of? value = some type := by
  constructor
  · rintro (_ | _ | _ | _ | _) <;> rfl
  · intro h
    cases value with
    | null => cases h
    | bool b => cases h; exact .boolean b
    | number n => cases h; exact .number n
    | string text => cases h; exact .string text
    | array items => cases h; exact .array items
    | object members => cases h; exact .object members

theorem ne_null_of_kind {type : AttributeType} {value : Value} (h : of? value = some type) :
    value ≠ .null := by
  rintro rfl
  cases h

theorem isCommonTo_iff {type : AttributeType} {key : String} {entities : List EntitySample} :
    type.IsCommonTo key entities ↔ type.IsAgreed (EntitySchema.observations entities key) := by
  have observed {value : Value} : value ∈ EntitySchema.observations entities key ↔
      ∃ sample ∈ entities, List.lookup key sample.attributes = some value := by
    simp only [EntitySchema.mem_observations, Table.get?_eq_lookup]
  constructor
  · rintro ⟨⟨sample, hs, value, hv, hn⟩, alone⟩
    refine ⟨⟨value, observed.2 ⟨sample, hs, hv⟩, isKindOf_iff.1 (alone sample hs value hv hn)⟩,
      fun other ho kind hk => ?_⟩
    obtain ⟨sample, hs, hv⟩ := observed.1 ho
    have htype := isKindOf_iff.1 (alone sample hs other hv (ne_null_of_kind hk))
    exact Option.some.inj (hk.symm.trans htype)
  · rintro ⟨⟨value, hm, hk⟩, alone⟩
    obtain ⟨sample, hs, hv⟩ := observed.1 hm
    refine ⟨⟨sample, hs, value, hv, ne_null_of_kind hk⟩, fun sample hs other ho hn => ?_⟩
    obtain ⟨kind, hkind⟩ := exists_kind hn
    rw [isKindOf_iff, hkind, alone other (observed.2 ⟨sample, hs, ho⟩) kind hkind]

end AttributeType

/-- The type is the one kind of all values under the key, or opaque where there is no such kind. -/
def Attribute.IsTypedBy (entry : Attribute) (entities : List EntitySample) : Prop :=
  entry.type.IsCommonTo entry.name entities ∨
    (¬ ∃ type : AttributeType, type.IsCommonTo entry.name entities) ∧ entry.type = .anything

namespace EntitySchema

/-- A schema is a group of the samples: those that fall into it and the attributes that any of them
has. -/
structure IsGroupOf (schema : EntitySchema) (samples : List EntitySample) (options : SchemaOptions) :
    Prop where
  nonempty : schema.entities ≠ []
  entities : schema.entities.Perm (samples.filter (·.FallsInto options schema))
  sorted : schema.entities.Pairwise fun first second => first.entityId ≤ second.entityId
  /-- Samples under one id stand in the order they come in. -/
  ties : ∀ id, schema.entities.filter (·.entityId == id) =
    (samples.filter (·.FallsInto options schema)).filter (·.entityId == id)
  ascending : (schema.attributes.map Attribute.name).Pairwise (· < ·)
  keys : ∀ key, key ∈ schema.attributes.map Attribute.name ↔
    ∃ sample ∈ schema.entities, key ∈ sample.attributes.map Prod.fst
  types : ∀ entry ∈ schema.attributes, entry.IsTypedBy schema.entities

end EntitySchema

structure AreGroupsOf (schemas : List EntitySchema) (samples : List EntitySample)
    (options : SchemaOptions) : Prop where
  ascending : schemas.Pairwise EntitySchema.Before
  groups : ∀ schema ∈ schemas, schema.IsGroupOf samples options
  all : (schemas.flatMap EntitySchema.entities).Perm samples

section
variable {samples : List EntitySample} {options : SchemaOptions} {first second schema : EntitySchema}

theorem Attribute.isTypedBy_iff {entry : Attribute} {entities : List EntitySample} :
    entry.IsTypedBy entities ↔
      entry.type = .infer (EntitySchema.observations entities entry.name) := by
  simp only [IsTypedBy, AttributeType.isCommonTo_iff]
  have hinferred := AttributeType.infer_cases (EntitySchema.observations entities entry.name)
  constructor
  · rintro (ha | ⟨hn, ha⟩)
    · rcases hinferred with hb | ⟨hm, -⟩
      · exact ha.unique hb
      · exact absurd ⟨_, ha⟩ hm
    · rcases hinferred with hb | ⟨-, hb⟩
      · exact absurd ⟨_, hb⟩ hn
      · rw [ha, hb]
  · intro h
    rw [h]
    exact hinferred

theorem EntitySchema.filter_fallsInto (schema : EntitySchema) :
    samples.filter (·.FallsInto options schema) =
      membersOf samples options schema.domain schema.isNumeric := by
  refine List.filter_congr fun sample _ => ?_
  rw [Bool.eq_iff_iff, decide_eq_true_iff, EntitySample.fallsInto_iff, Bool.and_eq_true, beq_iff_eq,
    beq_iff_eq]

theorem EntitySchema.isGroupOf_of_group?_eq_some {domain : String} {flag : Bool}
    (h : group? samples options domain flag = some schema) : schema.IsGroupOf samples options := by
  obtain ⟨hne, rfl⟩ := group?_eq_some.1 h
  have hperm := Text.sortedBy_perm EntitySample.entityId (membersOf samples options domain flag)
  have hnames : (ofMembers domain flag (membersOf samples options domain flag)).attributes.map
      Attribute.name = attributeKeys (membersOf samples options domain flag) := by
    simp [ofMembers, Function.comp_def]
  constructor
  case nonempty => exact fun hn => hne (List.perm_nil.1 (hn ▸ hperm.symm))
  case entities =>
    rw [filter_fallsInto]
    exact hperm
  case sorted => exact Text.pairwise_sortedBy _ _
  case ties =>
    intro id
    rw [filter_fallsInto]
    exact Text.filter_sortedBy _ _ id
  case ascending =>
    rw [hnames]
    exact Text.pairwise_ascending _
  case keys =>
    intro key
    rw [hnames, attributeKeys, Text.mem_ascending, List.mem_flatMap]
    exact exists_congr fun sample => and_congr_left fun _ => hperm.mem_iff.symm
  case types =>
    intro entry he
    obtain ⟨key, -, rfl⟩ := List.mem_map.1 he
    exact Attribute.isTypedBy_iff.2 (AttributeType.infer_eq_of_perm (hperm.symm.filterMap _))

theorem EntitySchema.IsGroupOf.unique (hf : first.IsGroupOf samples options)
    (hs : second.IsGroupOf samples options) (hd : first.domain = second.domain)
    (hn : first.isNumeric = second.isNumeric) : first = second := by
  have hentities : first.entities = second.entities := by
    refine Text.eq_of_filter_eq hf.sorted hs.sorted fun id => ?_
    rw [hf.ties, hs.ties, filter_fallsInto, filter_fallsInto, hd, hn]
  have hnames : first.attributes.map Attribute.name = second.attributes.map Attribute.name := by
    refine Text.eq_of_pairwise_lt hf.ascending hs.ascending fun key => ?_
    rw [hf.keys, hs.keys, hentities]
  have hattributes {schema : EntitySchema} (h : schema.IsGroupOf samples options) :
      schema.attributes = (schema.attributes.map Attribute.name).map fun key =>
        ⟨key, .infer (observations schema.entities key)⟩ := by
    rw [List.map_map]
    refine (List.map_id _).symm.trans (List.map_congr_left fun entry he => ?_)
    exact congrArg (Attribute.mk entry.name) (Attribute.isTypedBy_iff.1 (h.types entry he))
  have hlisted : first.attributes = second.attributes := by
    rw [hattributes hf, hattributes hs, hnames, hentities]
  cases first
  cases second
  simp_all

-- ---------------------------------------------------------------------------
-- All groups
-- ---------------------------------------------------------------------------

theorem EntitySchema.Before.asymm (h : Before first second) : ¬ Before second first := by
  rintro (hlt | ⟨heq, hf, hs⟩)
  · rcases h with hlt' | ⟨heq, -, -⟩
    · exact String.lt_asymm hlt hlt'
    · exact String.lt_irrefl _ (heq ▸ hlt)
  · rcases h with hlt | ⟨-, hf', -⟩
    · exact String.lt_irrefl _ (heq ▸ hlt)
    · exact Bool.false_ne_true (hf'.symm.trans hs)

theorem areGroupsOf_assemble (samples : List EntitySample) (options : SchemaOptions) :
    AreGroupsOf (assemble samples options) samples options := by
  refine ⟨pairwise_assemble samples options, fun schema hs => ?_,
    entities_assemble_perm samples options⟩
  obtain ⟨domain, flag, hgroup⟩ := mem_assemble.1 hs
  exact EntitySchema.isGroupOf_of_group?_eq_some hgroup

namespace AreGroupsOf

variable {schemas others : List EntitySchema}

theorem nodup (h : AreGroupsOf schemas samples options) : schemas.Nodup :=
  h.ascending.imp fun hbefore heq => (heq ▸ hbefore).asymm (heq ▸ hbefore)

theorem mem_of_mem (hs : AreGroupsOf schemas samples options) (ho : AreGroupsOf others samples options)
    (hm : schema ∈ schemas) : schema ∈ others := by
  have hgroup := hs.groups schema hm
  obtain ⟨sample, he⟩ := List.exists_mem_of_ne_nil _ hgroup.nonempty
  obtain ⟨hsample, hfalls⟩ := List.mem_filter.1 (hgroup.entities.mem_iff.1 he)
  obtain ⟨other, hother, he⟩ := List.mem_flatMap.1 (ho.all.mem_iff.2 hsample)
  have hgroup' := ho.groups other hother
  obtain ⟨-, hfalls'⟩ := List.mem_filter.1 (hgroup'.entities.mem_iff.1 he)
  obtain ⟨hd, hn⟩ := EntitySample.fallsInto_iff.1 (of_decide_eq_true hfalls)
  obtain ⟨hd', hn'⟩ := EntitySample.fallsInto_iff.1 (of_decide_eq_true hfalls')
  exact hgroup.unique hgroup' (hd.symm.trans hd') (hn.symm.trans hn') ▸ hother

end AreGroupsOf

/-- Schemas are what samples are assembled to if and only if they are their groups. -/
theorem eq_assemble_iff (samples : List EntitySample) (options : SchemaOptions)
    (schemas : List EntitySchema) :
    schemas = assemble samples options ↔ AreGroupsOf schemas samples options := by
  have ha := areGroupsOf_assemble samples options
  constructor
  · rintro rfl
    exact ha
  · intro h
    have hperm := (List.perm_ext_iff_of_nodup h.nodup ha.nodup).2 fun schema =>
      ⟨h.mem_of_mem ha, ha.mem_of_mem h⟩
    exact hperm.eq_of_pairwise (fun _ _ _ _ hab hba => absurd hba hab.asymm) h.ascending ha.ascending

end

/-- Lights that agree on their brightness but for a null, differ on the effect and have no icon. The
one with a unit, null as it is, is numeric. -/
def mixedSamples : List EntitySample := [
  ⟨"light.strip", none, [("brightness", .null), ("effect", .bool true)]⟩,
  ⟨"light.lamp", some "on",
    [("brightness", .number (.int 200)), ("effect", .string "rainbow"), ("icon", .null)]⟩,
  ⟨"light.meter", none, [("unit_of_measurement", .null)]⟩]

theorem eq_assemble_mixedSamples :
    (assemble mixedSamples ⟨[]⟩).map EntitySchema.attributes = [
      [⟨"brightness", .number⟩, ⟨"effect", .anything⟩, ⟨"icon", .anything⟩],
      [⟨"unit_of_measurement", .anything⟩]] ∧
    AreGroupsOf (assemble mixedSamples ⟨[]⟩) mixedSamples ⟨[]⟩ :=
  ⟨by decide +kernel, (eq_assemble_iff mixedSamples ⟨[]⟩ _).1 rfl⟩

end HomeHub
