import HomeHub.Proofs.PlainNames
import HomeHub.Proofs.PublicCode

/-!
# What definitions are printed from

The pieces that a definition is printed from: which texts they spell in literals, which they comment,
which names they have, and where they are public code. What is proved of source text rests on this and
on nothing else of the printer.
-/

namespace HomeHub

-- ---------------------------------------------------------------------------
-- Texts of definitions
-- ---------------------------------------------------------------------------

def ServiceMethod.remark (domain : String) (method : ServiceMethod) : String :=
  method.description.getD ("`" ++ method.qualifiedName domain ++ "`")

def FieldDefinition.remarks (field : FieldDefinition) : List String :=
  field.description.toList ++ if field.required then ["Required."] else []

def TypeDefinition.remarks : TypeDefinition → List String
  | .registration _ => ["Every injectable type of this model."]
  | .rootEntities d => "Entity aggregators of every domain." ::
      d.members.map fun member => "Domain `" ++ member.domain ++ "`."
  | .domainEntities d => ("Entities of domain `" ++ d.domain ++ "`.") ::
      d.entities.map fun entity => "`" ++ entity.entityId ++ "`"
  | .entity d => [(if d.numeric then "Numeric entity" else "Entity") ++ " of domain `" ++
      d.domain ++ "`."]
  | .attributeRecord d => ["Attributes of `" ++ d.origin ++ "` entities."]
  | .rootServices d => "Service groups of every domain." ::
      d.members.map fun member => "Domain `" ++ member.domain ++ "`."
  | .serviceGroup d => ("Services of domain `" ++ d.domain ++ "`.") ::
      d.methods.map (ServiceMethod.remark d.domain)
  | .serviceParameters d => ("Parameters of `" ++ d.origin ++ "`.") ::
      d.fields.flatMap FieldDefinition.remarks
  | .entityExtensions d => ("Services of domain `" ++ d.domain ++ "` called on its entities.") ::
      d.methods.map (ServiceMethod.remark d.domain)

def TypeDefinition.literals (crates : Source.Crates) : TypeDefinition → List String
  | .registration d => d.injectable
  | .rootEntities _ => []
  | .domainEntities d => d.entities.map EntityProperty.entityId
  | .entity d => [d.name]
  | .attributeRecord d => d.fields.flatMap fun field =>
      [field.sourceKey, crates.domain ++ "::state::lenient_field"]
  | .rootServices _ => []
  | .serviceGroup d => d.methods.flatMap fun method => [d.domain, method.service]
  | .serviceParameters d => d.fields.flatMap fun field => [field.sourceKey, "Option::is_none"]
  | .entityExtensions d => d.entityTypes.flatMap fun _ =>
      d.methods.map fun method => method.qualifiedName d.domain

-- ---------------------------------------------------------------------------
-- Definitions without descriptions
-- ---------------------------------------------------------------------------

def FieldDefinition.undescribed (field : FieldDefinition) : FieldDefinition :=
  { field with description := none }

def FieldRecord.undescribed (record : FieldRecord) : FieldRecord :=
  { record with fields := record.fields.map FieldDefinition.undescribed }

def ServiceMethod.undescribed (method : ServiceMethod) : ServiceMethod :=
  { method with description := none }

def TypeDefinition.undescribed : TypeDefinition → TypeDefinition
  | .registration d => .registration d
  | .rootEntities d => .rootEntities d
  | .domainEntities d => .domainEntities d
  | .entity d => .entity d
  | .attributeRecord d => .attributeRecord d.undescribed
  | .rootServices d => .rootServices d
  | .serviceGroup d => .serviceGroup { d with methods := d.methods.map ServiceMethod.undescribed }
  | .serviceParameters d => .serviceParameters d.undescribed
  | .entityExtensions d =>
    .entityExtensions { d with methods := d.methods.map ServiceMethod.undescribed }

/-- Models are equal without their descriptions if they differ in nothing else. -/
def GeneratedModel.undescribed (model : GeneratedModel) : GeneratedModel :=
  ⟨model.types.map TypeDefinition.undescribed⟩

namespace Source

variable {crates : Crates}

/-- Legible pieces with these literals and remarks in them. -/
structure Print (crates : Crates) (pieces : List Piece) (literals remarks : List String) : Prop where
  worded : ∀ name ∈ pieces.flatMap Piece.names, IsWord name
  opened : pieces.all Piece.isOpened = true
  literals_eq : pieces.flatMap (Piece.literals crates) = literals
  remarks_eq : pieces.flatMap Piece.remarks = remarks

theorem flatMap_nothing {α : Type} (items : List α) :
    items.flatMap (fun _ => ([] : List String)) = [] :=
  List.flatMap_eq_nil_iff.2 fun _ _ => rfl

namespace Print

variable {first second pieces : List Piece} {literals remarks others othersRemarks : List String}

theorem isLegible (h : Print crates pieces literals remarks) : ∀ piece ∈ pieces, piece.IsLegible :=
  fun piece hm => ⟨fun name hn => h.worded name (List.mem_flatMap_of_mem hm hn),
    List.all_eq_true.1 h.opened piece hm⟩

theorem of_eq (h : Print crates pieces others othersRemarks) (hl : others = literals)
    (hr : othersRemarks = remarks) : Print crates pieces literals remarks :=
  hl ▸ hr ▸ h

theorem append (hf : Print crates first literals remarks)
    (hs : Print crates second others othersRemarks) :
    Print crates (first ++ second) (literals ++ others) (remarks ++ othersRemarks) where
  worded := by
    rw [List.flatMap_append]
    exact List.forall_mem_append.2 ⟨hf.worded, hs.worded⟩
  opened := by rw [List.all_append, hf.opened, hs.opened, Bool.and_true]
  literals_eq := by rw [List.flatMap_append, hf.literals_eq, hs.literals_eq]
  remarks_eq := by rw [List.flatMap_append, hf.remarks_eq, hs.remarks_eq]

theorem flatMap {α : Type} {items : List α} {printed : α → List Piece}
    {literals remarks : α → List String}
    (h : ∀ item ∈ items, Print crates (printed item) (literals item) (remarks item)) :
    Print crates (items.flatMap printed) (items.flatMap literals) (items.flatMap remarks) := by
  induction items with
  | nil => exact ⟨by simp, rfl, rfl, rfl⟩
  | cons item rest ih =>
    obtain ⟨hitem, hrest⟩ := List.forall_mem_cons.1 h
    exact hitem.append (ih hrest)

theorem blank : Print crates [.blank] [] [] := ⟨List.forall_mem_nil _, rfl, rfl, rfl⟩

theorem separated {α : Type} {items : List α} {printed : α → List Piece}
    {literals remarks : α → List String}
    (h : ∀ item ∈ items, Print crates (printed item) (literals item) (remarks item)) :
    Print crates (separated (items.map printed)) (items.flatMap literals)
      (items.flatMap remarks) := by
  induction items with
  | nil => exact ⟨by simp [Source.separated], rfl, rfl, rfl⟩
  | cons item rest ih =>
    obtain ⟨hitem, hrest⟩ := List.forall_mem_cons.1 h
    cases rest with
    | nil => simpa [Source.separated] using hitem
    | cons next others => exact hitem.append (blank.append (ih hrest))

end Print

-- ---------------------------------------------------------------------------
-- Methods
-- ---------------------------------------------------------------------------

theorem print_head : Print crates (fileHeader ++ dataHelper) [] [] :=
  ⟨List.forall_mem_nil _, rfl, rfl, rfl⟩

theorem print_rootMember {member : AggregatorMember}
    (hm : IsWord (memberName member.identifier)) (ht : IsWord member.typeName) :
    Print crates (rootMember member) [] ["Domain `" ++ member.domain ++ "`."] where
  worded := List.forall_mem_cons.2 ⟨hm, List.forall_mem_cons.2 ⟨ht, List.forall_mem_singleton.2 ht⟩⟩
  opened := rfl
  literals_eq := rfl
  remarks_eq := rfl

theorem print_property {entity : EntityProperty} (hm : IsWord (memberName entity.identifier))
    (ht : IsWord entity.entityType) :
    Print crates (property entity) [entity.entityId] ["`" ++ entity.entityId ++ "`"] where
  worded := List.forall_mem_cons.2 ⟨hm, List.forall_mem_cons.2 ⟨ht, List.forall_mem_singleton.2 ht⟩⟩
  opened := rfl
  literals_eq := rfl
  remarks_eq := rfl

section
variable {method : ServiceMethod}

theorem print_groupMethod (crates : Crates) (domain : String) (h : method.IsWorded) :
    Print crates (groupMethod domain method) [domain, method.service] [method.remark domain] := by
  obtain ⟨identifier, service, description, parameters⟩ := method
  cases parameters <;> exact ⟨h.names, rfl, rfl, rfl⟩

theorem print_extensionDeclaration (crates : Crates) (domain : String) (h : method.IsWorded) :
    Print crates (extensionDeclaration domain method) [] [method.remark domain] := by
  obtain ⟨identifier, service, description, parameters⟩ := method
  cases parameters <;> exact ⟨h.names, rfl, rfl, rfl⟩

theorem print_extensionMethod (crates : Crates) (domain : String) (h : method.IsWorded) :
    Print crates (extensionMethod domain method) [method.qualifiedName domain] [] := by
  obtain ⟨identifier, service, description, parameters⟩ := method
  cases parameters <;> exact ⟨h.names, rfl, rfl, rfl⟩

end

-- ---------------------------------------------------------------------------
-- Definitions
-- ---------------------------------------------------------------------------

theorem print_closing (depth : Nat) : Print crates [closing depth] [] [] :=
  ⟨List.forall_mem_nil _, rfl, rfl, rfl⟩

theorem print_registration (definition : Registration) : Print crates (registration definition)
    definition.injectable (TypeDefinition.registration definition).remarks := by
  have hopening : Print crates ((registration definition).take 3) [] [_] :=
    ⟨List.forall_mem_nil _, rfl, rfl, rfl⟩
  have hname (name : String) : Print crates [.code 2 [.literal name, .fixed ","]] [name] [] :=
    ⟨List.forall_mem_nil _, rfl, rfl, rfl⟩
  have hclosing : Print crates [.code 1 [.fixed "]"], closing 0] [] [] :=
    ⟨List.forall_mem_nil _, rfl, rfl, rfl⟩
  have hnames : Print crates (definition.injectable.map fun name => .code 2 [.literal name,
      .fixed ","]) definition.injectable [] := by
    rw [List.map_eq_flatMap]
    exact (Print.flatMap fun name _ => hname name).of_eq (by simp) (flatMap_nothing _)
  have hlines := (hopening.append hnames).append hclosing
  rw [List.append_nil] at hlines
  exact hlines

theorem print_holder {α : Type} {items : List α} {printed : α → List Piece} {name : String}
    {literals remarks : α → List String} (hn : IsWord name) (summary : String)
    (h : ∀ item ∈ items, Print crates (printed item) (literals item) (remarks item)) :
    Print crates (holder summary name (items.map printed)) (items.flatMap literals)
      (summary :: items.flatMap remarks) := by
  have hnames : ∀ word ∈ List.replicate 3 name, IsWord word := fun word hm =>
    List.eq_of_mem_replicate hm ▸ hn
  have hopening : Print crates (.comment 0 summary :: busHolder name ++ [implOpening name]) []
      [summary] := ⟨hnames, rfl, rfl, rfl⟩
  have hlines := (hopening.append (Print.separated h)).append (print_closing 0)
  rw [List.append_nil, List.append_nil] at hlines
  exact hlines

theorem print_entityType {entity : EntityType} (hn : IsWord entity.name)
    (ha : IsWord entity.attributes) : Print crates (entityType entity) [entity.name]
      (TypeDefinition.entity entity).remarks := by
  obtain ⟨name, domain, numeric, attributes⟩ := entity
  have hnames : ∀ word ∈ [name, attributes, name, attributes, name, name, name, name, attributes,
      name], IsWord word := by
    simp [show IsWord name from hn, show IsWord attributes from ha]
  cases numeric <;> exact ⟨hnames, rfl, rfl, rfl⟩

theorem print_attributeField {field : FieldDefinition}
    (h : IsWord (memberName field.identifier)) :
    Print crates (attributeAsides field ++ [fieldLine field])
      [field.sourceKey, crates.domain ++ "::state::lenient_field"] [] :=
  ⟨List.forall_mem_singleton.2 h, rfl, rfl, rfl⟩

theorem print_parameterField {field : FieldDefinition}
    (h : IsWord (memberName field.identifier)) :
    Print crates (parameterAsides field ++ [fieldLine field]) [field.sourceKey, "Option::is_none"]
      field.remarks := by
  obtain ⟨identifier, sourceKey, fieldType, required, description⟩ := field
  cases description <;> cases required <;> exact ⟨List.forall_mem_singleton.2 h, rfl, rfl, rfl⟩

theorem print_record {asides : FieldDefinition → List Piece} {fields : List FieldDefinition}
    {literals remarks : FieldDefinition → List String} {name : String} (hn : IsWord name)
    (summary traits : String) (plain : IsPlain traits)
    (h : ∀ field ∈ fields,
      Print crates (asides field ++ [fieldLine field]) (literals field) (remarks field)) :
    Print crates (record summary name (.fixed traits plain) asides fields)
      (fields.flatMap literals) (summary :: fields.flatMap remarks) := by
  have hopening : Print crates ((record summary name (.fixed traits plain) asides fields).take 3) []
      [summary] :=
    ⟨List.forall_mem_singleton.2 hn, rfl, rfl, rfl⟩
  have hlines := (hopening.append (Print.flatMap h)).append (print_closing 0)
  rw [List.append_nil, List.append_nil] at hlines
  exact hlines

theorem print_extensionImpl {extensions : EntityExtensions} {entity : String}
    (hn : IsWord extensions.name) (hm : ∀ method ∈ extensions.methods, method.IsWorded)
    (he : IsWord entity) : Print crates (extensionImpl extensions entity)
      (extensions.methods.map fun method => method.qualifiedName extensions.domain) [] := by
  have hopening : Print crates ((extensionImpl extensions entity).take 2) [] [] :=
    ⟨List.forall_mem_cons.2 ⟨hn, List.forall_mem_singleton.2 he⟩, rfl, rfl, rfl⟩
  have hmethods := Print.separated fun method hmethod =>
    print_extensionMethod crates extensions.domain (hm method hmethod)
  refine ((hopening.append hmethods).append (print_closing 0)).of_eq ?_ ?_
  · rw [List.append_nil, List.nil_append, List.map_eq_flatMap]
  · rw [List.append_nil, List.nil_append, flatMap_nothing]

theorem print_entityExtensions {extensions : EntityExtensions}
    (hn : IsWord extensions.name) (hm : ∀ method ∈ extensions.methods, method.IsWorded)
    (he : ∀ entity ∈ extensions.entityTypes, IsWord entity) :
    Print crates (entityExtensions extensions)
      ((TypeDefinition.entityExtensions extensions).literals crates)
      (TypeDefinition.entityExtensions extensions).remarks := by
  have hopening : Print crates ((entityExtensions extensions).take 2) [] [_] :=
    ⟨List.forall_mem_singleton.2 hn, rfl, rfl, rfl⟩
  have hdeclared := Print.separated fun method hmethod =>
    print_extensionDeclaration crates extensions.domain (hm method hmethod)
  have himpls : Print crates (extensions.entityTypes.flatMap (extensionImpl extensions)) _ _ :=
    Print.flatMap fun entity hentity => print_extensionImpl hn hm (he entity hentity)
  refine ((hopening.append hdeclared).append ((print_closing 0).append himpls)).of_eq ?_ ?_
  · rw [flatMap_nothing]
    rfl
  · rw [flatMap_nothing, TypeDefinition.remarks, List.map_eq_flatMap, List.append_nil]
    exact List.append_nil _

theorem print_definitionPieces (crates : Crates) {definition : TypeDefinition}
    (hd : definition.IsWorded) :
    Print crates (definitionPieces definition) (definition.literals crates) definition.remarks := by
  have hmember := hd.members
  have hmentioned := hd.mentioned
  cases definition with
  | registration registration => exact print_registration registration
  | entity entity =>
    refine print_entityType hd.name (hmentioned _ ?_)
    simp [TypeDefinition.mentioned]
  | rootEntities root | rootServices root =>
    refine Print.of_eq (print_holder hd.name _ fun member hm => print_rootMember
      (hmember _ (List.mem_map_of_mem hm)) (hmentioned _ (List.mem_map_of_mem hm)))
      (flatMap_nothing _) ?_
    rw [TypeDefinition.remarks, List.map_eq_flatMap]
  | domainEntities aggregator =>
    refine Print.of_eq (print_holder hd.name _ fun entity hm => print_property
        (hmember _ (List.mem_map_of_mem hm)) (hmentioned _ (List.mem_map_of_mem hm))) ?_ ?_
    · rw [TypeDefinition.literals, List.map_eq_flatMap]
    · rw [TypeDefinition.remarks, List.map_eq_flatMap]
  | serviceGroup group =>
    refine Print.of_eq (print_holder hd.name _ fun method hm =>
      print_groupMethod crates group.domain (hd.groupMethod hm)) rfl ?_
    rw [TypeDefinition.remarks, List.map_eq_flatMap]
  | attributeRecord record =>
    refine Print.of_eq (print_record hd.name _ _ _ fun field hm =>
      print_attributeField (hmember _ (List.mem_map_of_mem hm))) rfl ?_
    rw [flatMap_nothing, TypeDefinition.remarks]
  | serviceParameters record =>
    exact print_record hd.name _ _ _ fun field hm =>
      print_parameterField (hmember _ (List.mem_map_of_mem hm))
  | entityExtensions extensions =>
    exact print_entityExtensions hd.name (fun method hm => hd.extensionMethod hm)
      fun entity he => hmentioned entity (List.mem_append_left _ he)

theorem print_modelPieces (crates : Crates) {model : GeneratedModel}
    (h : ∀ definition ∈ model.types, definition.IsWorded) :
    Print crates (modelPieces model) (model.types.flatMap (TypeDefinition.literals crates))
      (model.types.flatMap TypeDefinition.remarks) :=
  print_head.append (Print.flatMap fun definition hm =>
    Print.blank.append (print_definitionPieces crates (h definition hm)))

-- ---------------------------------------------------------------------------
-- Public code
-- ---------------------------------------------------------------------------

theorem isQuiet_head : ∀ piece ∈ fileHeader ++ dataHelper, piece.isQuiet = true :=
  List.all_eq_true.1 rfl

theorem isQuiet_rootMember (member : AggregatorMember) :
    ∀ piece ∈ rootMember member, piece.isQuiet = true :=
  List.all_eq_true.1 rfl

theorem isQuiet_property (entity : EntityProperty) :
    ∀ piece ∈ property entity, piece.isQuiet = true :=
  List.all_eq_true.1 rfl

section
variable (domain : String) (method : ServiceMethod)

theorem isQuiet_groupMethod : ∀ piece ∈ groupMethod domain method, piece.isQuiet = true := by
  obtain ⟨identifier, service, description, parameters⟩ := method
  cases parameters <;> exact List.all_eq_true.1 rfl

theorem isQuiet_extensionDeclaration :
    ∀ piece ∈ extensionDeclaration domain method, piece.isQuiet = true :=
  List.all_eq_true.1 rfl

theorem isQuiet_extensionMethod :
    ∀ piece ∈ extensionMethod domain method, piece.isQuiet = true := by
  obtain ⟨identifier, service, description, parameters⟩ := method
  cases parameters <;> exact List.all_eq_true.1 rfl

end

theorem lines_closing : (closing 0).lines crates = ["\x7d"] := by
  rw [closing, lines_code_zero]
  rfl

theorem lines_fieldLine (field : FieldDefinition) :
    (fieldLine field).lines crates = [fieldText field] := by
  have hindent : (indent 1).toList = "    ".toList := by decide
  simp only [fieldLine, Piece.lines, fieldText, Fragment.text, List.map_cons, List.map_nil]
  exact congrArg (fun text => [text]) (String.ext (by simp [hindent]))

variable {definition : TypeDefinition}

theorem isBlockOf_holder {α : Type} {items : List α} {printed : α → List Piece}
    (summary name : String) (h : ∀ item ∈ items, ∀ piece ∈ printed item, piece.isQuiet = true)
    (ho : definition.IsOpenedBy ("pub struct " ++ name ++ "<B> \x7b"))
    (hf : definition.fields? = none) :
    definition.IsBlockOf crates (holder summary name (items.map printed)) := by
  have hopening : [String.join ["pub struct ", name, "<B> \x7b"]] =
      ["pub struct " ++ name ++ "<B> \x7b"] := by
    simp [String.join_cons, String.append_assoc]
  have hquiet : ∀ piece ∈ (busHolder name).tail ++ implOpening name ::
      separated (items.map printed) ++ [closing 0], piece.isQuiet = true := by
    refine List.forall_mem_append.2 ⟨List.forall_mem_append.2 ⟨List.all_eq_true.1 rfl, ?_⟩,
      List.forall_mem_singleton.2 rfl⟩
    exact List.forall_mem_cons.2 ⟨rfl, forall_mem_separated rfl h⟩
  exact TypeDefinition.isBlockOf (show _ = [_] ++ _ :: (_ ++ implOpening name ::
      separated (items.map printed) ++ [closing 0]) from rfl)
    (List.all_eq_true.1 rfl) ((lines_code_zero _).trans hopening) ho hquiet
    fun rest => TypeDefinition.hasFieldsIn_of_fields?_eq_none hf _

section
variable {asides : FieldDefinition → List Piece} {fields : List FieldDefinition}

/-- Up to its closing brace a record has its fields and nothing else that looks like one. -/
theorem isBlockOf_record (summary name : String) (traits : Fragment)
    (ha : ∀ field ∈ fields, ∀ piece ∈ asides field, piece.isAside = true)
    (ho : definition.IsOpenedBy ("pub struct " ++ name ++ " \x7b"))
    (hf : definition.fields? = some fields) :
    definition.IsBlockOf crates (record summary name traits asides fields) := by
  have hfields : (fields.flatMap fun field => asides field ++ [fieldLine field]).flatMap
      (Piece.lines crates) = recordLines crates asides fields := by
    rw [List.flatMap_assoc]
    simp [recordLines, lines_fieldLine]
  have hquiet : ∀ piece ∈ (fields.flatMap fun field => asides field ++ [fieldLine field]) ++
      [closing 0], piece.isQuiet = true := by
    refine List.forall_mem_append.2 ⟨List.forall_mem_flatMap.2 fun field hm => ?_, by decide⟩
    refine List.forall_mem_append.2 ⟨fun piece hp => isQuiet_of_isAside (ha field hm piece hp), ?_⟩
    exact List.forall_mem_singleton.2 rfl
  have hopening : [String.join ["pub struct ", name, " \x7b"]] = ["pub struct " ++ name ++ " \x7b"] := by
    simp [String.join_cons, String.append_assoc]
  refine TypeDefinition.isBlockOf (show _ = [_, _] ++ _ :: (fields.flatMap _ ++ [closing 0]) from rfl)
    (List.all_eq_true.1 rfl) ((lines_code_zero _).trans hopening) ho hquiet
    fun rest others hothers => ?_
  obtain rfl := Option.some.inj (hf.symm.trans hothers)
  rw [List.flatMap_append, hfields, List.append_assoc,
    List.takeWhile_append_of_pos (ne_closing_of_mem_recordLines ha), List.flatMap_singleton,
    lines_closing, List.singleton_append, List.takeWhile_cons_of_neg (by simp), List.append_nil,
    filter_recordLines ha]

end

theorem isBlockOf_registration (registration : Registration) :
    (TypeDefinition.registration registration).IsBlockOf crates (Source.registration registration) := by
  have hquiet : ∀ piece ∈ .code 1 [.fixed "&["] :: (registration.injectable.map fun name =>
      .code 2 [.literal name, .fixed ","]) ++ [.code 1 [.fixed "]"], closing 0],
      piece.isQuiet = true := by
    refine List.forall_mem_append.2 ⟨List.forall_mem_cons.2 ⟨rfl, ?_⟩, List.all_eq_true.1 rfl⟩
    exact List.forall_mem_map.2 fun _ _ => rfl
  refine TypeDefinition.isBlockOf (show _ = [_] ++ _ :: (_ :: registration.injectable.map _ ++ _) from rfl)
    (List.all_eq_true.1 rfl) (lines_code_zero _) ?_ hquiet
    fun rest => TypeDefinition.hasFieldsIn_of_fields?_eq_none rfl _
  rw [List.map_cons, String.join_cons]
  exact startsWith_append (startsWith_ofList (by decide)) _

theorem isBlockOf_entityType (entity : EntityType) :
    (TypeDefinition.entity entity).IsBlockOf crates (entityType entity) := by
  refine TypeDefinition.isBlockOf (show _ = [_] ++ _ :: (entityType entity).drop 2 from rfl)
    (List.all_eq_true.1 rfl) (lines_code_zero _) ?_ (List.all_eq_true.1 rfl)
    fun rest => TypeDefinition.hasFieldsIn_of_fields?_eq_none rfl _
  have hstart (rest : List String) : (String.join ("pub struct " :: entity.name :: "<B>(pub " ::
      rest)).startsWith ("pub struct " ++ entity.name ++ "<B>(pub") = true := by
    rw [String.startsWith_string_iff]
    exact ⟨' ' :: (String.join rest).toList, by simp [String.join_cons]⟩
  exact hstart _

theorem isBlockOf_entityExtensions (extensions : EntityExtensions) :
    (TypeDefinition.entityExtensions extensions).IsBlockOf crates (entityExtensions extensions) := by
  have hopening : [String.join ["pub trait ", extensions.name, " \x7b"]] =
      ["pub trait " ++ extensions.name ++ " \x7b"] := by
    simp [String.join_cons, String.append_assoc]
  have hquiet : ∀ piece ∈ separated
      (extensions.methods.map (extensionDeclaration extensions.domain)) ++
      closing 0 :: extensions.entityTypes.flatMap (extensionImpl extensions),
      piece.isQuiet = true := by
    have himpl (entity : String) :
        ∀ piece ∈ extensionImpl extensions entity, piece.isQuiet = true := by
      refine List.forall_mem_append.2 ⟨?_, List.forall_mem_singleton.2 rfl⟩
      exact List.forall_mem_cons.2 ⟨rfl, List.forall_mem_cons.2 ⟨rfl, forall_mem_separated rfl
        fun method _ => isQuiet_extensionMethod extensions.domain method⟩⟩
    refine List.forall_mem_append.2 ⟨forall_mem_separated rfl fun method _ =>
      isQuiet_extensionDeclaration extensions.domain method, List.forall_mem_cons.2 ⟨rfl, ?_⟩⟩
    exact List.forall_mem_flatMap.2 fun entity _ => himpl entity
  exact TypeDefinition.isBlockOf (show _ = [_] ++ _ :: (separated _ ++ closing 0 :: _) from rfl)
    (List.all_eq_true.1 rfl) ((lines_code_zero _).trans hopening) rfl hquiet
    fun rest => TypeDefinition.hasFieldsIn_of_fields?_eq_none rfl _

theorem isBlockOf_definitionPieces (crates : Crates) (definition : TypeDefinition) :
    definition.IsBlockOf crates (definitionPieces definition) := by
  cases definition with
  | registration registration => exact isBlockOf_registration registration
  | entity entity => exact isBlockOf_entityType entity
  | entityExtensions extensions => exact isBlockOf_entityExtensions extensions
  | rootEntities root | rootServices root =>
    exact isBlockOf_holder _ _ (fun member _ => isQuiet_rootMember member) rfl rfl
  | domainEntities aggregator =>
    exact isBlockOf_holder _ _ (fun entity _ => isQuiet_property entity) rfl rfl
  | serviceGroup group =>
    exact isBlockOf_holder _ _ (fun method _ => isQuiet_groupMethod group.domain method) rfl rfl
  | attributeRecord record =>
    exact isBlockOf_record _ _ _ (fun field _ => List.all_eq_true.1 rfl) rfl rfl
  | serviceParameters record =>
    refine isBlockOf_record _ _ _ (fun field _ => List.all_eq_true.1 ?_) rfl rfl
    obtain ⟨identifier, sourceKey, fieldType, required, description⟩ := field
    cases description <;> cases required <;> rfl

-- ---------------------------------------------------------------------------
-- Code without descriptions
-- ---------------------------------------------------------------------------

section
variable {α : Type} {f g : α → List Piece}

theorem filter_separated (h : ∀ item, (f item).filter Piece.isCode = (g item).filter Piece.isCode)
    (items : List α) : (separated (items.map f)).filter Piece.isCode =
      (separated (items.map g)).filter Piece.isCode := by
  induction items with
  | nil => rfl
  | cons item rest ih =>
    cases rest with
    | nil => exact h item
    | cons next others =>
      simp only [List.map_cons, separated] at ih ⊢
      rw [List.filter_append, List.filter_append, h item, List.filter_cons, List.filter_cons, ih]

theorem filter_flatMap (h : ∀ item, (f item).filter Piece.isCode = (g item).filter Piece.isCode)
    (items : List α) : (items.flatMap f).filter Piece.isCode =
      (items.flatMap g).filter Piece.isCode := by
  rw [List.filter_flatMap, List.filter_flatMap]
  exact congrArg items.flatMap (funext h)

end

theorem filter_parameterField (field : FieldDefinition) :
    (parameterAsides field.undescribed ++ [fieldLine field.undescribed]).filter Piece.isCode =
      (parameterAsides field ++ [fieldLine field]).filter Piece.isCode := by
  obtain ⟨identifier, sourceKey, fieldType, required, description⟩ := field
  cases description <;> cases required <;> rfl

theorem filter_groupMethod (domain : String) (method : ServiceMethod) :
    (groupMethod domain method.undescribed).filter Piece.isCode =
      (groupMethod domain method).filter Piece.isCode :=
  rfl

theorem filter_extensionDeclaration (domain : String) (method : ServiceMethod) :
    (extensionDeclaration domain method.undescribed).filter Piece.isCode =
      (extensionDeclaration domain method).filter Piece.isCode :=
  rfl

theorem filter_separated_undescribed {printed : ServiceMethod → List Piece}
    (h : ∀ method, (printed method.undescribed).filter Piece.isCode =
      (printed method).filter Piece.isCode) (methods : List ServiceMethod) :
    (separated ((methods.map ServiceMethod.undescribed).map printed)).filter Piece.isCode =
      (separated (methods.map printed)).filter Piece.isCode := by
  rw [List.map_map]
  exact filter_separated h methods

theorem filter_holder (summary name : String) {first second : List (List Piece)}
    (h : (separated first).filter Piece.isCode = (separated second).filter Piece.isCode) :
    (holder summary name first).filter Piece.isCode =
      (holder summary name second).filter Piece.isCode := by
  simp only [holder, List.filter_append, List.filter_cons, h]

/-- Descriptions are in comments and nowhere else. -/
theorem filter_undescribed (definition : TypeDefinition) :
    (definitionPieces definition.undescribed).filter Piece.isCode =
      (definitionPieces definition).filter Piece.isCode := by
  cases definition with
  | attributeRecord record =>
    simp only [TypeDefinition.undescribed, definitionPieces, attributeRecord, Source.record,
      FieldRecord.undescribed, List.flatMap_map]
    rfl
  | serviceParameters record =>
    simp only [TypeDefinition.undescribed, definitionPieces, parameters, Source.record,
      FieldRecord.undescribed, List.flatMap_map, List.filter_append,
      filter_flatMap filter_parameterField record.fields]
  | serviceGroup group =>
    exact filter_holder _ _ (filter_separated_undescribed (filter_groupMethod group.domain) _)
  | entityExtensions extensions =>
    have himpl (entity : String) : extensionImpl
        { extensions with methods := extensions.methods.map ServiceMethod.undescribed } entity =
          extensionImpl extensions entity := by
      simp only [extensionImpl, List.map_map]
      rfl
    simp only [TypeDefinition.undescribed, definitionPieces, entityExtensions, List.filter_append,
      filter_separated_undescribed (filter_extensionDeclaration extensions.domain),
      funext himpl]
  | _ => rfl

theorem filter_modelPieces (model : GeneratedModel) :
    (modelPieces model.undescribed).filter Piece.isCode =
      (modelPieces model).filter Piece.isCode := by
  have hdefinition (definition : TypeDefinition) :
      (Piece.blank :: definitionPieces definition.undescribed).filter Piece.isCode =
        (Piece.blank :: definitionPieces definition).filter Piece.isCode := by
    rw [List.filter_cons, List.filter_cons, filter_undescribed]
  simp only [modelPieces, GeneratedModel.undescribed, List.flatMap_map, List.filter_append,
    filter_flatMap hdefinition]

end Source

end HomeHub
