import HomeHub.Attributes
import HomeHub.Proofs.InputOrder
import HomeHub.Proofs.RecordKeys

/-!
# Attribute records and their samples

The attribute record of a group reads the bag of each sample of the group without loss: what is not
null stands in the one field under its key, and a number as a binary64 number. Where a field asks
for a kind, all that was observed in the group is of this kind.
-/

namespace HomeHub

open Json (Value Members)

-- ---------------------------------------------------------------------------
-- Values and kinds
-- ---------------------------------------------------------------------------

inductive FieldValue.Holds : AttributeType → Value → FieldValue → Prop
  | string (text : String) : Holds .string (.string text) (.string text)
  | number (n : Json.Number) : Holds .number (.number n) (.number n.toBinary64)
  | boolean (b : Bool) : Holds .boolean (.bool b) (.boolean b)
  | anything (value : Value) : Holds .anything value (.anything value)

theorem FieldValue.Holds.of?_eq {type : AttributeType} {value : Value} {content : FieldValue}
    (h : Holds type value content) : of? type value = some content := by
  cases h <;> rfl

namespace AttributeType

theorem exists_holds_of_kind {type : AttributeType} {value : Value} (h : of? value = some type) :
    ∃ content, FieldValue.Holds type value content := by
  cases value with
  | null => cases h
  | bool b => cases h; exact ⟨_, .boolean b⟩
  | number n => cases h; exact ⟨_, .number n⟩
  | string text => cases h; exact ⟨_, .string text⟩
  | array items => cases h; exact ⟨_, .anything _⟩
  | object members => cases h; exact ⟨_, .anything _⟩

theorem exists_kind {value : Value} (h : value ≠ .null) : ∃ type, of? value = some type := by
  cases value with
  | null => contradiction
  | _ => exact ⟨_, rfl⟩

theorem exists_holds_infer {observations : List Value} {value : Value} (hm : value ∈ observations)
    (hn : value ≠ .null) : ∃ content, FieldValue.Holds (infer observations) value content := by
  rcases infer_cases observations with agreed | ⟨-, h⟩
  · obtain ⟨kind, hk⟩ := exists_kind hn
    exact exists_holds_of_kind (agreed.alone value hm kind hk ▸ hk)
  · exact h ▸ ⟨_, .anything value⟩

theorem isAgreed_infer {observations : List Value} (h : infer observations ≠ .anything) :
    (infer observations).IsAgreed observations :=
  (infer_cases observations).resolve_right fun hnone => h hnone.2

end AttributeType

-- ---------------------------------------------------------------------------
-- Lenient reading
-- ---------------------------------------------------------------------------

theorem RecordField.read_eq_ok {field : RecordField} (h : field.required = false) (value : Value) :
    field.read value = .ok (FieldValue.of? field.type value) := by
  unfold read
  cases FieldValue.of? field.type value with
  | none => simp [h]
  | some content => rfl

namespace RecordShape

variable {name : String} {fields : List (String × AttributeType)}

theorem required_of_mem_lenient {field : RecordField} (h : field ∈ (lenient name fields).fields) :
    field.required = false := by
  obtain ⟨_, -, rfl⟩ := List.mem_map.1 h
  rfl

theorem checkMembers_lenient (members : Members) :
    (lenient name fields).checkMembers members = .ok () := by
  refine forM_eq_ok.2 fun (key, value) _ => ?_
  dsimp only
  split
  · rename_i field hf
    rw [RecordField.read_eq_ok (required_of_mem_lenient (List.mem_of_find?_eq_some hf))]
    rfl
  · rfl

theorem readMember_lenient (members : Members) {field : RecordField} (h : field.required = false) :
    readMember members field =
      .ok (field.key, (members.get? field.key).bind (FieldValue.of? field.type)) := by
  unfold readMember
  cases members.get? field.key with
  | none => simp [h]
  | some value =>
    simp only [RecordField.read_eq_ok h]
    rfl

theorem read_lenient (members : Members) :
    (lenient name fields).read (.object members) = .ok (fields.map fun (key, type) =>
      (key, (members.get? key).bind (FieldValue.of? type))) := by
  have hread : (lenient name fields).fields.mapM (readMember members) = .ok (fields.map
      fun (key, type) => (key, (members.get? key).bind (FieldValue.of? type))) := by
    refine mapM_eq_ok.2 (List.forall₂_map_left_iff.2 (List.forall₂_map_right_iff.2 ?_))
    exact List.forall₂_same.2 fun _ _ => readMember_lenient members rfl
  exact bind_eq_ok.2 ⟨(), checkMembers_lenient members, hread⟩

theorem read_ofDefinition (record : FieldRecord) (members : Members) :
    (ofDefinition record).read (.object members) = .ok (record.fields.map fun field =>
      (field.sourceKey, (members.get? field.sourceKey).bind (FieldValue.of? field.fieldType))) := by
  rw [ofDefinition, read_lenient, List.map_map]
  rfl

end RecordShape

-- ---------------------------------------------------------------------------
-- The record of a group
-- ---------------------------------------------------------------------------

/-- A record keeps what the samples have, and no field asks for more than all of them allow. -/
structure FieldRecord.Fits (record : FieldRecord) (samples : List EntitySample) : Prop where
  /-- What is not null is there in the one field under its key. -/
  kept : ∀ sample ∈ samples, ∃ contents,
    (RecordShape.ofDefinition record).read (.object sample.attributes) = .ok contents ∧
      ∀ key value, sample.attributes.get? key = some value → value ≠ .null →
        ∃ field content, record.fields.filter (·.sourceKey == key) = [field] ∧
          contents.filter (·.1 == key) = [(key, some content)] ∧
          FieldValue.Holds field.fieldType value content
  /-- A kind was observed, and no other was. -/
  typed : ∀ field ∈ record.fields, field.fieldType ≠ .anything →
    (∃ sample ∈ samples, ∃ value,
      sample.attributes.get? field.sourceKey = some value ∧ value ≠ .null) ∧
    ∀ sample ∈ samples, ∀ value, sample.attributes.get? field.sourceKey = some value →
      value ≠ .null → AttributeType.of? value = some field.fieldType

namespace EntitySchema

theorem mem_observations {samples : List EntitySample} {key : String} {value : Value} :
    value ∈ observations samples key ↔
      ∃ sample ∈ samples, sample.attributes.get? key = some value :=
  List.mem_filterMap

variable {schemas : List EntitySchema} {domain : String} {flag : Bool} {samples : List EntitySample}

theorem fieldType_of_mem_attributeRecord {field : FieldDefinition}
    (h : field ∈ ((ofMembers domain flag samples).attributeRecord schemas).fields) :
    field.fieldType = AttributeType.infer (observations samples field.sourceKey) := by
  obtain ⟨named, -, hfield⟩ := List.mem_filterMap.1 h
  obtain ⟨found, hf, rfl⟩ := Option.map_eq_some_iff.1 hfield
  obtain ⟨hm, hk⟩ := lastWhere?_eq_some hf
  obtain ⟨key, -, rfl⟩ := List.mem_map.1 hm
  obtain rfl : key = named.sourceKey := eq_of_beq hk
  rfl

theorem exists_field_of_get? {sample : EntitySample} (hs : sample ∈ samples) {key : String}
    {value : Value} (h : sample.attributes.get? key = some value) :
    ∃ field ∈ ((ofMembers domain flag samples).attributeRecord schemas).fields,
      field.sourceKey = key ∧
        ((ofMembers domain flag samples).attributeRecord schemas).fields.filter
          (·.sourceKey == key) = [field] := by
  have hkey : key ∈ attributeKeys samples :=
    Text.mem_ascending.2 <| List.mem_flatMap.2
      ⟨sample, hs, List.mem_map_of_mem (Table.mem_of_get?_eq_some h)⟩
  have hm : key ∈ ((ofMembers domain flag samples).attributeRecord schemas).sourceKeys := by
    refine (sourceKeys_attributeRecord_perm _ _).mem_iff.2 ?_
    simpa [ofMembers] using hkey
  obtain ⟨field, hf, rfl⟩ := List.mem_map.1 hm
  exact ⟨field, hf, rfl, filter_key_eq nodup_sourceKeys_attributeRecord hf⟩

theorem fits_attributeRecord :
    ((ofMembers domain flag samples).attributeRecord schemas).Fits samples := by
  constructor
  case kept =>
    intro sample hs
    refine ⟨_, RecordShape.read_ofDefinition _ _, fun key value hv hn => ?_⟩
    obtain ⟨field, hf, rfl, hfilter⟩ := exists_field_of_get? hs hv
    obtain ⟨content, hc⟩ :=
      AttributeType.exists_holds_infer (mem_observations.2 ⟨sample, hs, hv⟩) hn
    rw [← fieldType_of_mem_attributeRecord hf] at hc
    refine ⟨field, content, hfilter, ?_, hc⟩
    rw [List.filter_map]
    refine (congrArg (List.map _) hfilter).trans ?_
    rw [List.map_singleton, hv, Option.bind_some, hc.of?_eq]
  case typed =>
    intro field hf hne
    have htype := fieldType_of_mem_attributeRecord hf
    have agreed := AttributeType.isAgreed_infer (htype ▸ hne)
    rw [htype]
    constructor
    · obtain ⟨value, hm, hkind⟩ := agreed.told
      obtain ⟨sample, hs, hv⟩ := mem_observations.1 hm
      exact ⟨sample, hs, value, hv, fun hnull => by rw [hnull] at hkind; cases hkind⟩
    · intro sample hs value hv hn
      obtain ⟨kind, hkind⟩ := AttributeType.exists_kind hn
      rw [hkind, agreed.alone value (mem_observations.2 ⟨sample, hs, hv⟩) kind hkind]

end EntitySchema

-- ---------------------------------------------------------------------------
-- Models
-- ---------------------------------------------------------------------------

theorem nodup_groups_assemble (samples : List EntitySample) (options : SchemaOptions) :
    ((assemble samples options).map fun schema => (schema.domain, schema.isNumeric)).Nodup := by
  refine List.pairwise_map.2 ((pairwise_assemble samples options).imp fun hb heq => ?_)
  obtain ⟨hdomain, hflag⟩ := Prod.mk.inj heq
  exact hb.ne.elim (· hdomain) (· hflag)

namespace GeneratedModel

/-- Each group of samples has one entity type in a model, with a record that fits the group. -/
theorem fits_of_generate_eq_ok (samples : List EntitySample) (options : SchemaOptions)
    (catalog : List ServiceDomain) (model : GeneratedModel)
    (h : generate (assemble samples options) catalog = .ok model) (domain : String) (flag : Bool)
    (hm : membersOf samples options domain flag ≠ []) :
    ∃ entity record,
      model.entityTypes.filter (fun entity => entity.domain == domain && entity.numeric == flag) =
          [entity] ∧
        model.find? entity.attributes = some (.attributeRecord record) ∧
        record.Fits (membersOf samples options domain flag) := by
  obtain ⟨services, -, hc⟩ := bind_eq_ok.1 h
  obtain ⟨hnames, -, rfl⟩ := check_eq_ok.1 hc
  let schema := EntitySchema.ofMembers domain flag (membersOf samples options domain flag)
  have hs : schema ∈ assemble samples options :=
    mem_assemble.2 ⟨domain, flag, group?_eq_some.2 ⟨hm, rfl⟩⟩
  have hrecord := find?_of_mem hnames (mem_attributeRecord.2 ⟨schema, hs, rfl⟩)
  refine ⟨schema.entityType _, schema.attributeRecord _, ?_, hrecord,
    EntitySchema.fits_attributeRecord⟩
  rw [entityTypes_definitions, List.filter_map]
  exact congrArg (List.map (EntitySchema.entityType _))
    (filter_key_eq (nodup_groups_assemble samples options) hs)

def dimmedSamples : List EntitySample := [
  ⟨"light.lamp", none, [("brightness", .number (.int 200)), ("effect", .null)]⟩,
  ⟨"light.strip", none, [("brightness", .null), ("effect", .string "rainbow")]⟩]

def dimmedSchema : EntitySchema :=
  ⟨"light", false, dimmedSamples, [⟨"brightness", .number⟩, ⟨"effect", .string⟩]⟩

theorem assemble_dimmedSamples : assemble dimmedSamples ⟨[]⟩ = [dimmedSchema] := by cbv

theorem ofSchemas_dimmedSchema : DomainAggregator.ofSchemas [dimmedSchema] =
    [⟨"LightEntities", "light", [⟨"Lamp", "light.lamp", "LightEntity"⟩,
      ⟨"Strip", "light.strip", "LightEntity"⟩]⟩] := by
  have hdomains : Text.ascending ([dimmedSchema].map EntitySchema.domain) = ["light"] := by
    decide +kernel
  have hlight : ([dimmedSchema].filter (·.domain == "light")).flatMap
      (EntitySchema.typedEntities [dimmedSchema]) =
        [("light.lamp", "LightEntity"), ("light.strip", "LightEntity")] := by decide +kernel
  rw [DomainAggregator.ofSchemas_eq, hdomains, List.map_singleton, hlight,
    DomainAggregator.ofEntities, Text.sortedByBoth_of_pairwise (by decide +kernel)]
  decide +kernel

theorem attributeRecord_dimmedSchema : dimmedSchema.attributeRecord [dimmedSchema] =
    ⟨"LightEntityAttributes", "light", [⟨"Brightness", "brightness", .number, false, none⟩,
      ⟨"Effect", "effect", .string, false, none⟩]⟩ := by
  have hkeys : dimmedSchema.attributes.map Attribute.name = ["brightness", "effect"] := rfl
  have hnames : Naming.canonicalNames ["brightness", "effect"] Naming.fieldMark =
      [⟨"Brightness", "brightness"⟩, ⟨"Effect", "effect"⟩] := by
    rw [Naming.canonicalNames, Text.sortedByBoth_of_pairwise (by decide +kernel)]
    decide +kernel
  rw [EntitySchema.attributeRecord, hkeys, hnames]
  decide +kernel

theorem fits_dimmedSamples : ∃ model entity record,
    generate (assemble dimmedSamples ⟨[]⟩) [] = .ok model ∧
      model.entityTypes.filter (fun entity => entity.domain == "light" && entity.numeric == false) =
        [entity] ∧
      model.find? entity.attributes = some (.attributeRecord record) ∧
      record.Fits (membersOf dimmedSamples ⟨[]⟩ "light" false) := by
  have hok : (generate (assemble dimmedSamples ⟨[]⟩) []).isOk = true := by
    have hservices : ServiceDomain.groups [] = .ok [] := by decide +kernel
    rw [generate, hservices, assemble_dimmedSamples]
    unfold definitions
    rw [ofSchemas_dimmedSchema, List.map_singleton, List.map_singleton,
      attributeRecord_dimmedSchema]
    decide +kernel
  have hm : membersOf dimmedSamples ⟨[]⟩ "light" false ≠ [] := by decide +kernel
  cases h : generate (assemble dimmedSamples ⟨[]⟩) [] with
  | error error => rw [h] at hok; cases hok
  | ok model =>
    obtain ⟨entity, record, hfits⟩ := fits_of_generate_eq_ok _ _ _ _ h "light" false hm
    exact ⟨model, entity, record, rfl, hfits⟩

end GeneratedModel

end HomeHub
