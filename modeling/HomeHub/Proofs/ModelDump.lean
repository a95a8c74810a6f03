import HomeHub.Model.Json
import HomeHub.Pipeline
import HomeHub.Proofs.JsonRecord
import HomeHub.Proofs.JsonText

/-!
# The dump of a model

A dump is read back as the model that was written, whatever texts are in it.
-/

namespace HomeHub

open Json (Value Document Decoder Layout)

-- ---------------------------------------------------------------------------
-- Parts of definitions
-- ---------------------------------------------------------------------------

theorem AggregatorMember.inverts_decoder : decoder.Inverts toValue 1 := by
  intro member levels hl
  obtain ⟨more, rfl⟩ := Nat.exists_eq_add_of_le' hl
  exact Decoder.record_ofValue (.required rfl (.required rfl (.required rfl .nil))) (by decide) _

theorem EntityProperty.inverts_decoder : decoder.Inverts toValue 1 := by
  intro property levels hl
  obtain ⟨more, rfl⟩ := Nat.exists_eq_add_of_le' hl
  exact Decoder.record_ofValue (.required rfl (.required rfl (.required rfl .nil))) (by decide) _

theorem writes_optionalMember (levels : Nat) {ts : List Type} {rest : Layout ts}
    {members : List (String × Value)} {fields : Json.Fields ts}
    (h : rest.Writes levels members fields) (name : String) (text : Option String) :
    (Layout.optional name (Decoder.option Decoder.string) none rest).Writes levels
      (optionalMember name text ++ members) (.cons text fields) := by
  cases text with
  | none => exact .absent h
  | some text => exact .present rfl h

theorem AttributeType.lookup_byName (type : AttributeType) : byName.lookup type.name = some type := by
  cases type <;> rfl

theorem FieldDefinition.inverts_decoder : decoder.Inverts toValue 1 := by
  intro field levels hl
  obtain ⟨more, rfl⟩ := Nat.exists_eq_add_of_le' hl
  have hd := writes_optionalMember more .nil "description" field.description
  rw [List.append_nil] at hd
  exact Decoder.record_ofValue (.required rfl (.required rfl (.required
    (Decoder.inverts_choice AttributeType.lookup_byName field.fieldType _ (Nat.zero_le _))
      (.required rfl hd)))) (by decide) _

theorem ServiceMethod.inverts_decoder : decoder.Inverts toValue 1 := by
  intro method levels hl
  obtain ⟨more, rfl⟩ := Nat.exists_eq_add_of_le' hl
  have hp := writes_optionalMember more .nil "parameters" method.parameters
  rw [List.append_nil] at hp
  have hd := writes_optionalMember more hp "description" method.description
  exact Decoder.record_ofValue (.required rfl (.required rfl hd)) (by decide) _

-- ---------------------------------------------------------------------------
-- Definitions
-- ---------------------------------------------------------------------------

theorem inverts_textList : (Decoder.list Decoder.string).Inverts textList 1 :=
  Decoder.inverts_string.list

namespace TypeDefinition

theorem inverts_rootDecoder : rootDecoder.Inverts (fun root => .object (rootMembers root)) 3 := by
  intro root levels hl
  obtain ⟨more, rfl⟩ := Nat.exists_eq_add_of_le' hl
  exact Decoder.record_ofValue (.required rfl (.required
    (AggregatorMember.inverts_decoder.list root.members _ (Nat.le_add_left _ _)) .nil)) (by decide) _

theorem inverts_recordDecoder :
    recordDecoder.Inverts (fun record => .object (recordMembers record)) 3 := by
  intro record levels hl
  obtain ⟨more, rfl⟩ := Nat.exists_eq_add_of_le' hl
  exact Decoder.record_ofValue (.required rfl (.required rfl (.required
    (FieldDefinition.inverts_decoder.list record.fields _ (Nat.le_add_left _ _)) .nil))) (by decide) _

theorem exists_decoder (definition : TypeDefinition) :
    ∃ decoder, decoders.lookup definition.kind = some decoder ∧ ∀ levels, 3 ≤ levels →
      decoder levels (.ofValue (.object definition.members)) = .ok definition := by
  have hmore {levels : Nat} (hl : 3 ≤ levels) : ∃ more, levels = more + 3 :=
    Nat.exists_eq_add_of_le' hl
  cases definition with
  | registration d =>
    refine ⟨_, rfl, fun levels hl => ?_⟩
    obtain ⟨more, rfl⟩ := hmore hl
    exact Decoder.map_eq_ok (Decoder.record_ofValue (.required rfl (.required
      (inverts_textList d.injectable _ (by omega)) .nil)) (by decide) _) _
  | rootEntities d =>
    exact ⟨_, rfl, fun levels hl => Decoder.map_eq_ok (inverts_rootDecoder d levels hl) _⟩
  | domainEntities d =>
    refine ⟨_, rfl, fun levels hl => ?_⟩
    obtain ⟨more, rfl⟩ := hmore hl
    exact Decoder.map_eq_ok (Decoder.record_ofValue (.required rfl (.required rfl (.required
      (EntityProperty.inverts_decoder.list d.entities _ (by omega)) .nil))) (by decide) _) _
  | entity d =>
    refine ⟨_, rfl, fun levels hl => ?_⟩
    obtain ⟨more, rfl⟩ := hmore hl
    exact Decoder.map_eq_ok (Decoder.record_ofValue
      (.required rfl (.required rfl (.required rfl (.required rfl .nil)))) (by decide) _) _
  | attributeRecord d =>
    exact ⟨_, rfl, fun levels hl => Decoder.map_eq_ok (inverts_recordDecoder d levels hl) _⟩
  | rootServices d =>
    exact ⟨_, rfl, fun levels hl => Decoder.map_eq_ok (inverts_rootDecoder d levels hl) _⟩
  | serviceGroup d =>
    refine ⟨_, rfl, fun levels hl => ?_⟩
    obtain ⟨more, rfl⟩ := hmore hl
    exact Decoder.map_eq_ok (Decoder.record_ofValue (.required rfl (.required rfl (.required
      (ServiceMethod.inverts_decoder.list d.methods _ (by omega)) .nil))) (by decide) _) _
  | serviceParameters d =>
    exact ⟨_, rfl, fun levels hl => Decoder.map_eq_ok (inverts_recordDecoder d levels hl) _⟩
  | entityExtensions d =>
    refine ⟨_, rfl, fun levels hl => ?_⟩
    obtain ⟨more, rfl⟩ := hmore hl
    exact Decoder.map_eq_ok (Decoder.record_ofValue (.required rfl (.required rfl (.required
      (inverts_textList d.entityTypes _ (by omega)) (.required
        (ServiceMethod.inverts_decoder.list d.methods _ (by omega)) .nil)))) (by decide) _) _

theorem ne_kind_of_mem_members (definition : TypeDefinition) :
    ∀ member ∈ definition.members, member.1 ≠ "kind" := by
  cases definition <;> simp [members, rootMembers, recordMembers]

theorem splitKind_ofMembers {members : List (String × Value)} (h : ∀ m ∈ members, m.1 ≠ "kind") :
    splitKind (Document.ofMembers members) = .ok ([], Document.ofMembers members) := by
  induction members with
  | nil => rfl
  | cons member rest ih =>
    obtain ⟨key, v⟩ := member
    obtain ⟨hk, hr⟩ := List.forall_mem_cons.1 h
    rw [Document.ofMembers_cons, splitKind, ih hr]
    show (if key = "kind" then _ else _) = _
    rw [if_neg hk]
    rfl

theorem splitKind_kind (kind : String) {members : List (String × Value)}
    (h : ∀ m ∈ members, m.1 ≠ "kind") :
    splitKind (Document.ofMembers (("kind", .string kind) :: members)) =
      .ok ([.string (.ok kind)], Document.ofMembers members) := by
  rw [Document.ofMembers_cons, splitKind, splitKind_ofMembers h]
  rfl

end TypeDefinition

-- ---------------------------------------------------------------------------
-- Values of definitions
-- ---------------------------------------------------------------------------

section

open Json.Value (IsTextual)

theorem isTextual_list {α : Type} {toValue : α → Value} {levels : Nat}
    (h : ∀ a, IsTextual levels (toValue a)) (items : List α) :
    IsTextual (levels + 1) (.array (items.map toValue)) :=
  .array (List.forall_mem_map.2 fun a _ => h a)

variable (levels : Nat)

theorem isTextual_textList (texts : List String) : IsTextual (levels + 1) (textList texts) :=
  isTextual_list (fun text => .string text) texts

theorem isTextual_optionalMember (name : String) (text : Option String) :
    ∀ member ∈ optionalMember name text, IsTextual levels member.2 := by
  cases text <;> simp [optionalMember, IsTextual.string]

theorem AggregatorMember.isTextual (member : AggregatorMember) :
    IsTextual (levels + 1) member.toValue :=
  .object (by simp [IsTextual.string])

theorem EntityProperty.isTextual (property : EntityProperty) :
    IsTextual (levels + 1) property.toValue :=
  .object (by simp [IsTextual.string])

theorem FieldDefinition.isTextual (field : FieldDefinition) :
    IsTextual (levels + 1) field.toValue := by
  refine .object (List.forall_mem_append.2 ⟨?_, isTextual_optionalMember levels _ _⟩)
  simp [IsTextual.string, IsTextual.bool]

theorem ServiceMethod.isTextual (method : ServiceMethod) :
    IsTextual (levels + 1) method.toValue := by
  refine .object (List.forall_mem_append.2 ⟨List.forall_mem_append.2 ⟨?_, ?_⟩, ?_⟩)
  · simp [IsTextual.string]
  · exact isTextual_optionalMember levels _ _
  · exact isTextual_optionalMember levels _ _

theorem TypeDefinition.isTextual (definition : TypeDefinition) :
    IsTextual (levels + 3) definition.toValue := by
  have hmembers := isTextual_list (AggregatorMember.isTextual levels)
  have hproperties := isTextual_list (EntityProperty.isTextual levels)
  have hfields := isTextual_list (FieldDefinition.isTextual levels)
  have hmethods := isTextual_list (ServiceMethod.isTextual levels)
  refine .object (List.forall_mem_cons.2 ⟨.string _, ?_⟩)
  cases definition <;>
    simp [members, rootMembers, recordMembers, IsTextual.string, IsTextual.bool, isTextual_textList,
      hmembers, hproperties, hfields, hmethods]

theorem GeneratedModel.isTextual (model : GeneratedModel) :
    IsTextual (levels + 5) model.toValue :=
  .object (List.forall_mem_singleton.2 (isTextual_list (TypeDefinition.isTextual levels) model.types))

end

theorem TypeDefinition.inverts_decoder : decoder.Inverts toValue 3 := by
  intro definition levels hl
  obtain ⟨more, rfl⟩ := Nat.exists_eq_add_of_le' hl
  obtain ⟨read, hread⟩ := Decoder.exists_valueOf (definition.isTextual more)
  obtain ⟨ofKind, hk, hd⟩ := definition.exists_decoder
  have hs := splitKind_kind definition.kind definition.ne_kind_of_mem_members
  have hwhole : (discard (Decoder.value (more + 3) (.ofValue definition.toValue)) :
      Except Json.Failure Unit) = .ok () := by
    rw [Decoder.value, hread]
    rfl
  refine bind_eq_ok.2 ⟨(), hwhole, bind_eq_ok.2 ⟨_, hs, bind_eq_ok.2 ⟨definition.kind, rfl, ?_⟩⟩⟩
  rw [hk]
  exact hd _ hl

namespace GeneratedModel

theorem inverts_decoder : decoder.Inverts toValue 5 := by
  intro model levels hl
  obtain ⟨more, rfl⟩ := Nat.exists_eq_add_of_le' hl
  exact Decoder.record_ofValue (.required
    (TypeDefinition.inverts_decoder.list model.types _ (Nat.le_add_left _ _)) .nil) (by decide) _

/-- The dump of a model is written, and what is read from its text is the model. -/
theorem run_dump_eq_ok (model : GeneratedModel) : ∃ text, OutputFormat.json.renderer model = .ok text ∧
    decoder.run (Text.symbols text.toList) = .ok model := by
  have htext : Text.symbols model.renderJson.toList =
      Text.symbols (model.toValue.write .indented 0) ++ [.char '\n'] := by
    rw [renderJson, String.toList_append, Value.indented, String.toList_ofList, Json.symbols_append]
    rfl
  have hd := Document.ofText_written Json.Style.isSpaced_indented
    (model.isTextual 0) 0 [.char '\n']
  refine ⟨model.renderJson, rfl, ?_⟩
  rw [Decoder.run, htext, hd]
  exact bind_eq_ok.2 ⟨model, inverts_decoder model Decoder.textLevels (by decide), rfl⟩

end GeneratedModel

end HomeHub
