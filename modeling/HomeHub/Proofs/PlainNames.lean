import HomeHub.Proofs.MemberNames
import HomeHub.Proofs.SourceText

/-!
# Names in generated source

Only names stand in source as they are: those of types and of members. Whatever the keys of the hub
are, each of them is a word and so fits in one line, and each type that is mentioned is a type of the
model.
-/

namespace HomeHub

namespace Source

theorem IsWord.ofList {chars : List Char}
    (h : ∀ c ∈ chars, c.isAlphanum = true ∨ c = '_' ∨ c = '#') : IsWord (String.ofList chars) := by
  rwa [IsWord, String.toList_ofList]

theorem IsWord.append {first second : String} (hf : IsWord first) (hs : IsWord second) :
    IsWord (first ++ second) := by
  rw [IsWord, String.toList_append]
  exact List.forall_mem_append.2 ⟨hf, hs⟩

theorem IsTypeName.isWord {name : String} (h : IsTypeName name) : IsWord name := by
  obtain ⟨c, rest, rfl, hc, hr⟩ := h
  refine .ofList (List.forall_mem_cons.2 ⟨.inl (Naming.isAlphanum_of_isUpper hc), fun d hd => ?_⟩)
  exact (hr d hd).imp_right .inl

theorem isWord_memberName {identifier : String} (h : Naming.IsIdentifier identifier) :
    IsWord (memberName identifier) := by
  obtain ⟨c, rest, hc, hr, -, hs⟩ := exists_snakeCase h
  have hlower {d : Char} (hd : d.isLower = true) : d.isAlphanum = true := by
    simp [Char.isAlphanum, Char.isAlpha, hd]
  have hsnake : IsWord (snakeCase identifier) := by
    rw [IsWord, hs]
    have htail := isSnakeTail_snakeChars hr (ne_underscore (Naming.isAlphanum_of_isUpper hc))
    refine List.forall_mem_cons.2 ⟨.inl (hlower (isLower_toLower_of_isUpper hc)), fun d hd => ?_⟩
    rcases htail.isLower_or_isDigit_or_eq d hd with hd | hd | hd
    · exact .inl (hlower hd)
    · exact .inl (Naming.isAlphanum_of_isDigit hd)
    · exact .inr (.inl hd)
  have hmark : IsWord "_" := .ofList (by simp)
  have hraw : IsWord "r#" := .ofList (by simp)
  rcases memberName_cases identifier with ⟨-, hm⟩ | ⟨-, -, hm⟩ | ⟨-, -, hm⟩
  · exact hm ▸ hsnake.append hmark
  · exact hm ▸ hraw.append hsnake
  · exact hm ▸ hsnake

end Source

namespace TypeDefinition

def mentioned : TypeDefinition → List String
  | .registration _ => []
  | .rootEntities d => d.members.map AggregatorMember.typeName
  | .domainEntities d => d.entities.map EntityProperty.entityType
  | .entity d => [d.attributes]
  | .attributeRecord _ => []
  | .rootServices d => d.members.map AggregatorMember.typeName
  | .serviceGroup d => d.methods.filterMap ServiceMethod.parameters
  | .serviceParameters _ => []
  | .entityExtensions d => d.entityTypes ++ d.methods.filterMap ServiceMethod.parameters

structure IsWorded (definition : TypeDefinition) : Prop where
  name : Source.IsWord definition.name
  members : ∀ identifier ∈ definition.memberIdentifiers, Source.IsWord (Source.memberName identifier)
  mentioned : ∀ name ∈ definition.mentioned, Source.IsWord name

end TypeDefinition

structure ServiceMethod.IsWorded (method : ServiceMethod) : Prop where
  member : Source.IsWord (Source.memberName method.identifier)
  parameters : ∀ name, method.parameters = some name → Source.IsWord name

theorem ServiceMethod.IsWorded.names {method : ServiceMethod} (h : method.IsWorded) :
    ∀ name ∈ Source.memberName method.identifier :: method.parameters.toList,
      Source.IsWord name :=
  List.forall_mem_cons.2 ⟨h.member, fun name hn => h.parameters name (Option.mem_toList.1 hn)⟩

namespace TypeDefinition.IsWorded

variable {group : ServiceGroup} {extensions : EntityExtensions} {method : ServiceMethod}

theorem groupMethod (h : (TypeDefinition.serviceGroup group).IsWorded) (hm : method ∈ group.methods) :
    method.IsWorded :=
  ⟨h.members _ (List.mem_map_of_mem hm), fun name hp =>
    h.mentioned name (List.mem_filterMap.2 ⟨method, hm, hp⟩)⟩

theorem extensionMethod (h : (TypeDefinition.entityExtensions extensions).IsWorded)
    (hm : method ∈ extensions.methods) : method.IsWorded :=
  ⟨h.members _ (List.mem_map_of_mem hm), fun name hp => h.mentioned name
    (List.mem_append_right _ (List.mem_filterMap.2 ⟨method, hm, hp⟩))⟩

end TypeDefinition.IsWorded

section
variable {schemas : List EntitySchema} {catalog : List ServiceDomain}
  {services : List (ServiceGroup × List FieldRecord)}

open GeneratedModel

/-- Whatever a definition mentions is defined. -/
theorem mem_names_of_mem_mentioned (hg : ServiceDomain.groups catalog = .ok services)
    {definition : TypeDefinition} (hm : definition ∈ definitions schemas services) :
    ∀ name ∈ definition.mentioned,
      name ∈ (definitions schemas services).map TypeDefinition.name := by
  have hnamed {other : TypeDefinition} (ho : other ∈ definitions schemas services) :
      other.name ∈ (definitions schemas services).map TypeDefinition.name := List.mem_map_of_mem ho
  have hentity {schema : EntitySchema} (hs : schema ∈ schemas) :
      (schema.entityType schemas).name ∈
        (definitions schemas services).map TypeDefinition.name :=
    hnamed (mem_entity.2 ⟨schema, hs, rfl⟩)
  have hparameters {result : ServiceGroup × List FieldRecord} (hr : result ∈ services) :
      ∀ name ∈ result.1.methods.filterMap ServiceMethod.parameters,
        name ∈ (definitions schemas services).map TypeDefinition.name := by
    intro name hname
    obtain ⟨method, hmethod, hp⟩ := List.mem_filterMap.1 hname
    obtain ⟨record, hrecord, rfl, -⟩ := exists_serviceParameters hg hr hmethod hp
    exact hnamed hrecord
  unfold TypeDefinition.mentioned
  cases definition with
  | registration registration => simp
  | attributeRecord record => simp
  | serviceParameters record => simp
  | rootEntities root =>
    obtain rfl := mem_rootEntities.1 hm
    refine List.forall_mem_map.2 (List.forall_mem_map.2 fun aggregator ha => ?_)
    exact hnamed (mem_domainEntities.2 ha)
  | rootServices root =>
    obtain rfl := mem_rootServices.1 hm
    refine List.forall_mem_map.2 (List.forall_mem_map.2 (List.forall_mem_map.2 fun result hr => ?_))
    exact hnamed (mem_serviceGroup.2 ⟨result, hr, rfl⟩)
  | domainEntities aggregator =>
    refine List.forall_mem_map.2 fun property hp => ?_
    obtain ⟨schema, hs, -, ht⟩ := DomainAggregator.exists_schema (mem_domainEntities.1 hm) hp
    exact ht ▸ hentity hs
  | entity entity =>
    obtain ⟨schema, hs, rfl⟩ := mem_entity.1 hm
    refine List.forall_mem_singleton.2 ?_
    exact hnamed (mem_attributeRecord.2 ⟨schema, hs, rfl⟩)
  | serviceGroup group =>
    obtain ⟨result, hr, rfl⟩ := mem_serviceGroup.1 hm
    exact hparameters hr
  | entityExtensions extensions =>
    obtain ⟨result, hr, hx⟩ := mem_entityExtensions.1 hm
    obtain ⟨-, rfl⟩ := ServiceGroup.extensions?_eq_some.1 hx
    refine List.forall_mem_append.2 ⟨List.forall_mem_map.2 fun entity he => ?_, hparameters hr⟩
    obtain ⟨schema, hs, rfl⟩ := List.mem_map.1 (List.mem_filter.1 he).1
    exact hentity hs

theorem isWorded_of_mem_definitions (hg : ServiceDomain.groups catalog = .ok services)
    {definition : TypeDefinition} (hm : definition ∈ definitions schemas services) :
    definition.IsWorded where
  name := (isTypeName_of_mem_names hg _ (List.mem_map_of_mem hm)).isWord
  members identifier hi :=
    Source.isWord_memberName (isIdentifier_of_mem_definitions hg hm identifier hi)
  mentioned name hn :=
    (isTypeName_of_mem_names hg name (mem_names_of_mem_mentioned hg hm name hn)).isWord

theorem isWorded_of_generate_eq_ok {model : GeneratedModel}
    (h : generate schemas catalog = .ok model) : ∀ definition ∈ model.types, definition.IsWorded := by
  obtain ⟨services, hg, hc⟩ := bind_eq_ok.1 h
  obtain ⟨-, -, rfl⟩ := check_eq_ok.1 hc
  exact fun definition => isWorded_of_mem_definitions hg

end

end HomeHub
