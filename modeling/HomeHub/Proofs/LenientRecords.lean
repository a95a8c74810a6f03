import HomeHub.Proofs.AttributeFit

/-!
# Lenient records

A record whose fields are all lenient is read from null and from every object, whatever is in it. What
a field gets depends on the value under its own key alone. From an array the fields are filled in order,
as long as there are fields; nothing else is read as a record.
-/

namespace HomeHub

open Json (Value Members)

-- ---------------------------------------------------------------------------
-- Fields
-- ---------------------------------------------------------------------------

namespace FieldValue

/-- What a lenient field takes of the value under its key: nothing if there is none or if it is of
another kind. -/
inductive IsTakenFrom (type : AttributeType) : Option Value → Option FieldValue → Prop where
  | absent : IsTakenFrom type none none
  | held {value : Value} {content : FieldValue} (h : Holds type value content) :
      IsTakenFrom type (some value) (some content)
  | refused {value : Value} (h : ∀ content, ¬ Holds type value content) :
      IsTakenFrom type (some value) none

theorem holds_of_of?_eq {type : AttributeType} {value : Value} {content : FieldValue}
    (h : of? type value = some content) : Holds type value content := by
  cases type with
  | string => cases value <;> simp [of?] at h; exact h ▸ .string _
  | number => cases value <;> simp [of?] at h; exact h ▸ .number _
  | boolean => cases value <;> simp [of?] at h; exact h ▸ .boolean _
  | anything => cases value <;> simp [of?] at h <;> exact h ▸ .anything _

theorem isTakenFrom_of? (type : AttributeType) (value? : Option Value) :
    IsTakenFrom type value? (value?.bind (of? type)) := by
  cases value? with
  | none => exact .absent
  | some value =>
    rw [Option.bind_some]
    cases h : of? type value with
    | some content => exact .held (holds_of_of?_eq h)
    | none =>
      refine .refused fun content hc => ?_
      rw [hc.of?_eq] at h
      cases h

end FieldValue

-- ---------------------------------------------------------------------------
-- Records
-- ---------------------------------------------------------------------------

namespace RecordShape

variable {shape : RecordShape}

def held? (shape : RecordShape) (members : Members) (key : String) : Option (Option FieldValue) :=
  (shape.read (.object members)).toOption.bind (·.lookup key)

structure ReadsLeniently (shape : RecordShape) : Prop where
  null : shape.read .null = .ok (shape.fields.map fun field => (field.key, none))
  object : ∀ members, ∃ record, shape.read (.object members) = .ok record ∧
    record.map Prod.fst = shape.fields.map RecordField.key
  taken : ∀ members, ∀ field ∈ shape.fields, ∃ content,
    shape.held? members field.key = some content ∧
      FieldValue.IsTakenFrom field.type (members.get? field.key) content
  /-- Two bags that agree in the key of a field leave the same in it. -/
  apart : ∀ field ∈ shape.fields, ∀ members others : Members,
    members.get? field.key = others.get? field.key →
      shape.held? members field.key = shape.held? others field.key
  edited : ∀ field ∈ shape.fields, ∀ (members : Members) (key : String), key ≠ field.key →
    (∀ value, shape.held? (members.insert key value) field.key = shape.held? members field.key) ∧
      shape.held? (members.erase key) field.key = shape.held? members field.key
  array : ∀ items : List Value, items.length ≤ shape.fields.length →
    ∃ record, shape.read (.array items) = .ok record ∧
      record.map Prod.fst = shape.fields.map RecordField.key ∧
      ∀ (place : Nat) (field : RecordField), shape.fields[place]? = some field →
        ∃ content, record[place]? = some (field.key, content) ∧
          FieldValue.IsTakenFrom field.type items[place]? content
  surplus : ∀ items : List Value, shape.fields.length < items.length →
    shape.read (.array items) = .error (.invalidLength items.length "fewer elements in array")
  other : ∀ bag : Value, bag ≠ .null → (∀ members, bag ≠ .object members) →
    (∀ items, bag ≠ .array items) → shape.read bag = .error (.invalidType bag shape.expected)

theorem eq_lenient (h : ∀ field ∈ shape.fields, field.required = false) :
    shape = lenient shape.name (shape.fields.map fun field => (field.key, field.type)) := by
  have hfields : shape.fields = shape.fields.map fun field => ⟨field.key, field.type, false⟩ := by
    refine (List.map_id _).symm.trans (List.map_congr_left fun field hm => ?_)
    rw [← h field hm, id]
  rw [lenient, List.map_map]
  exact congrArg (RecordShape.mk shape.name) hfields

theorem read_object (h : ∀ field ∈ shape.fields, field.required = false) (members : Members) :
    shape.read (.object members) = .ok (shape.fields.map fun field =>
      (field.key, (members.get? field.key).bind (FieldValue.of? field.type))) := by
  conv_lhs => rw [eq_lenient h, read_lenient, List.map_map]
  rfl

theorem held?_eq (h : ∀ field ∈ shape.fields, field.required = false)
    (hk : (shape.fields.map RecordField.key).Nodup) (members : Members) {field : RecordField}
    (hm : field ∈ shape.fields) : shape.held? members field.key =
      some ((members.get? field.key).bind (FieldValue.of? field.type)) := by
  rw [held?, read_object h]
  exact lookup_map_key hk hm

/-- As long as there are fields, the items fill them in order, and the fields behind are empty. -/
theorem readItems_eq_ok {fields : List RecordField} (h : ∀ field ∈ fields, field.required = false)
    (taken : Nat) (items : List Value) (hle : items.length ≤ fields.length) :
    shape.readItems taken fields items = .ok (fields.mapIdx fun place field =>
      (field.key, items[place]?.bind (FieldValue.of? field.type))) := by
  induction fields generalizing taken items with
  | nil =>
    obtain rfl := List.eq_nil_of_length_eq_zero (Nat.le_zero.1 hle)
    rfl
  | cons field rest ih =>
    obtain ⟨hfield, hrest⟩ := List.forall_mem_cons.1 h
    cases items with
    | nil =>
      rw [readItems, ih hrest taken [] (Nat.zero_le _), hfield]
      simp [Except.map]
    | cons value others =>
      have hothers := ih hrest (taken + 1) others (Nat.le_of_succ_le_succ hle)
      rw [readItems, RecordField.read_eq_ok hfield, hothers]
      simp [bind, Except.bind, pure, Except.pure]

theorem readItems_eq_error (shape : RecordShape) {fields : List RecordField}
    (h : ∀ field ∈ fields, field.required = false) (taken : Nat) (items : List Value)
    (hlt : fields.length < items.length) : shape.readItems taken fields items =
      .error (.invalidLength (taken + items.length) "fewer elements in array") := by
  induction fields generalizing taken items with
  | nil =>
    cases items with
    | nil => cases hlt
    | cons value others => rfl
  | cons field rest ih =>
    obtain ⟨hfield, hrest⟩ := List.forall_mem_cons.1 h
    cases items with
    | nil => cases hlt
    | cons value others =>
      have hothers := ih hrest (taken + 1) others (Nat.lt_of_succ_lt_succ hlt)
      rw [readItems, RecordField.read_eq_ok hfield, hothers, List.length_cons,
        Nat.add_right_comm, Nat.add_assoc]
      rfl

/-- A record of lenient fields with distinct keys is read from null and from every object, and no
field of it depends on the key of another. -/
theorem readsLeniently (shape : RecordShape) (h : ∀ field ∈ shape.fields, field.required = false)
    (hk : (shape.fields.map RecordField.key).Nodup) : shape.ReadsLeniently where
  null := (read_object h []).trans (congrArg Except.ok (List.map_congr_left fun _ _ => rfl))
  object members := ⟨_, read_object h members, by rw [List.map_map]; rfl⟩
  taken members field hm := ⟨_, held?_eq h hk members hm, FieldValue.isTakenFrom_of? _ _⟩
  apart field hm members others heq := by rw [held?_eq h hk _ hm, held?_eq h hk _ hm, heq]
  edited field hm members key hne := by
    refine ⟨fun value => ?_, ?_⟩
    · rw [held?_eq h hk _ hm, held?_eq h hk _ hm, Table.get?_insert, if_neg hne]
    · rw [held?_eq h hk _ hm, held?_eq h hk _ hm, Table.get?_erase, if_neg hne]
  array items hle := by
    refine ⟨_, readItems_eq_ok h 0 items hle, ?_, fun place field hf => ?_⟩
    · exact List.ext_getElem? fun place => by simp [Function.comp_def]
    · refine ⟨_, ?_, FieldValue.isTakenFrom_of? _ _⟩
      rw [List.getElem?_mapIdx, hf, Option.map_some]
  surplus items hlt := by
    have hsurplus := shape.readItems_eq_error h 0 items hlt
    rwa [Nat.zero_add] at hsurplus
  other bag hnull hobject harray := by
    cases bag with
    | null => exact absurd rfl hnull
    | object members => exact absurd rfl (hobject members)
    | array items => exact absurd rfl (harray items)
    | _ => rfl

def lampRecord : FieldRecord :=
  ⟨"LightEntityAttributes", "light", [⟨"Brightness", "brightness", .number, false, none⟩,
    ⟨"Effect", "effect", .string, false, none⟩, ⟨"IsGroup", "is_group", .boolean, false, none⟩,
    ⟨"Modes", "modes", .anything, false, none⟩]⟩

theorem readsLeniently_lampRecord : (ofDefinition lampRecord).ReadsLeniently ∧
    (ofDefinition lampRecord).held? [("brightness", .string "high"), ("effect", .string "rainbow")]
        "effect" =
      (ofDefinition lampRecord).held? [("effect", .string "rainbow")] "effect" :=
  have h := readsLeniently (ofDefinition lampRecord) (by decide) (by decide)
  ⟨h, h.apart ⟨"effect", .string, false⟩ (by decide) _ _ rfl⟩

end RecordShape

end HomeHub
