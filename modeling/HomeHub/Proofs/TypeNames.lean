import HomeHub.Model.Json
import HomeHub.Proofs.Check
import HomeHub.Proofs.Groups
import HomeHub.Proofs.ServiceGroups
import Mathlib.Data.List.Nodup

/-!
# Names of generated types

Every name of a model is a stem with the ending of its family. No text is a stem with two endings,
so names of two families never meet, and inside a family names meet if and only if their stems do.
This leaves exactly four ways for a model to be refused for its type names.
-/

namespace HomeHub

theorem Naming.domainName_ne_empty (domain : String) : Naming.domainName domain ≠ "" := by
  have hne : Naming.resolveChars domain.toList Naming.domainMark.toList ≠ [] := by
    unfold Naming.resolveChars
    split
    · decide
    · split <;> simp
  intro h
  exact hne (by simpa [Naming.domainName, Naming.resolve] using congrArg String.toList h)

-- ---------------------------------------------------------------------------
-- Stems and endings
-- ---------------------------------------------------------------------------

inductive NameEnding where
  | registration
  | entities
  | entity
  | attributes
  | services
  | parameters
  | extensions
  deriving DecidableEq

namespace NameEnding

def text : NameEnding → String
  | .registration => GeneratedModel.registrationName
  | .entities => RootAggregator.entitiesName
  | .entity => "Entity"
  | .attributes => "EntityAttributes"
  | .services => RootAggregator.servicesName
  | .parameters => "Parameters"
  | .extensions => "EntityExtensions"

theorem eq_of_isSuffix {first second : NameEnding}
    (h : first.text.toList <:+ second.text.toList) : first = second := by
  revert h
  cases first <;> cases second <;> decide

end NameEnding

structure Spelling where
  stem : String
  ending : NameEnding
  deriving DecidableEq

namespace Spelling

def text (spelling : Spelling) : String := spelling.stem ++ spelling.ending.text

theorem text_injective : Function.Injective text := by
  rintro ⟨stem, ending⟩ ⟨stem', ending'⟩ h
  have hl : stem.toList ++ ending.text.toList = stem'.toList ++ ending'.text.toList := by
    simpa [text] using congrArg String.toList h
  -- of two ends of one text, one is the end of the other
  have he : ending = ending' := by
    rcases List.suffix_or_suffix_of_suffix (List.suffix_append _ _)
      (hl ▸ List.suffix_append _ _) with hs | hs
    · exact (NameEnding.eq_of_isSuffix hs).symm
    · exact NameEnding.eq_of_isSuffix hs
  subst he
  rw [String.toList_inj.1 (List.append_cancel_right hl)]

end Spelling

namespace TypeDefinition

def ending : TypeDefinition → NameEnding
  | .registration _ => .registration
  | .rootEntities _ => .entities
  | .domainEntities _ => .entities
  | .entity _ => .entity
  | .attributeRecord _ => .attributes
  | .rootServices _ => .services
  | .serviceGroup _ => .services
  | .serviceParameters _ => .parameters
  | .entityExtensions _ => .extensions

end TypeDefinition

-- ---------------------------------------------------------------------------
-- The names of a model
-- ---------------------------------------------------------------------------

section
variable {schemas : List EntitySchema} {catalog : List ServiceDomain}
  {services : List (ServiceGroup × List FieldRecord)}

def EntitySchema.domains (schemas : List EntitySchema) : List String :=
  Text.ascending (schemas.map EntitySchema.domain)

/-- The stems of the names of a model without its extensions, by family in the order of the model.
A root is a member of its family without a stem. -/
def families (schemas : List EntitySchema) (catalog : List ServiceDomain) :
    List (NameEnding × List String) := [
  (.registration, [""]),
  (.entities, "" :: (EntitySchema.domains schemas).map Naming.domainName),
  (.entity, schemas.map (EntitySchema.baseName schemas)),
  (.attributes, schemas.map (EntitySchema.baseName schemas)),
  (.services, "" :: (ServiceDomain.groupDomains catalog).map Naming.domainName),
  (.parameters, (ServiceDomain.withServices catalog).flatMap ServiceDomain.recordStems)]

def extensionFamily (schemas : List EntitySchema) (catalog : List ServiceDomain) :
    NameEnding × List String :=
  (.extensions, ((ServiceDomain.groupDomains catalog).filter fun domain =>
    schemas.any (·.domain == domain)).map Naming.domainName)

def Spelling.ofFamilies (families : List (NameEnding × List String)) : List Spelling :=
  families.flatMap fun (ending, stems) => stems.map (⟨·, ending⟩)

theorem Spelling.nodup_ofFamilies {families : List (NameEnding × List String)}
    (h : (families.map Prod.fst).Nodup) :
    (ofFamilies families).Nodup ↔ ∀ family ∈ families, family.2.Nodup := by
  have hinj (ending : NameEnding) : Function.Injective (Spelling.mk · ending) :=
    fun _ _ heq => (Spelling.mk.inj heq).1
  have hdisjoint : families.Pairwise (Function.onFun List.Disjoint fun (ending, stems) =>
      stems.map (⟨·, ending⟩ : String → Spelling)) := by
    refine (List.pairwise_map.1 h).imp fun {first second} hne => ?_
    intro spelling hf hs
    obtain ⟨_, -, rfl⟩ := List.mem_map.1 hf
    obtain ⟨_, -, heq⟩ := List.mem_map.1 hs
    exact hne (Spelling.mk.inj heq).2.symm
  rw [ofFamilies, List.nodup_flatMap, and_iff_left hdisjoint]
  simp only [List.nodup_map_iff (hinj _)]

theorem name_extensions? (entityTypes : List EntityType) (group : ServiceGroup) :
    (group.extensions? entityTypes).map EntityExtensions.name =
      if entityTypes.any (·.domain == group.domain) then
        some (Naming.domainName group.domain ++ "EntityExtensions")
      else none := by
  unfold ServiceGroup.extensions?
  cases hf : entityTypes.filter (·.domain == group.domain) with
  | nil =>
    have ha : entityTypes.any (·.domain == group.domain) = false := by
      simpa [List.filter_eq_nil_iff] using hf
    simp [ha]
  | cons first rest =>
    have hm : first ∈ entityTypes.filter (·.domain == group.domain) := hf ▸ List.mem_cons_self
    have ha : entityTypes.any (·.domain == group.domain) = true :=
      List.any_eq_true.2 ⟨first, List.mem_filter.1 hm⟩
    simp [ha]

theorem names_extensions (entityTypes : List EntityType) (groups : List ServiceGroup) :
    (groups.filterMap (ServiceGroup.extensions? entityTypes)).map EntityExtensions.name =
      ((groups.map ServiceGroup.domain).filter fun domain =>
        entityTypes.any (·.domain == domain)).map (Naming.domainName · ++ "EntityExtensions") := by
  rw [List.map_filterMap]
  simp only [name_extensions?]
  induction groups with
  | nil => rfl
  | cons group rest ih =>
    cases ha : entityTypes.any (·.domain == group.domain) <;>
      simp only [List.filterMap_cons, List.filter_cons, List.map_cons, ha, ih, if_true,
        Bool.false_eq_true, if_false]

theorem names_aggregators (schemas : List EntitySchema) :
    (DomainAggregator.ofSchemas schemas).map DomainAggregator.name =
      (EntitySchema.domains schemas).map (Naming.domainName · ++ RootAggregator.entitiesName) := by
  simp only [DomainAggregator.ofSchemas, List.map_map]
  rfl

/-- The definitions that are not made from others. -/
def TypeDefinition.isOwn : TypeDefinition → Bool
  | .entityExtensions _ => false
  | _ => true

theorem definitions_eq_append (schemas : List EntitySchema)
    (services : List (ServiceGroup × List FieldRecord)) :
    GeneratedModel.definitions schemas services =
      (GeneratedModel.definitions schemas services).filter TypeDefinition.isOwn ++
        ((services.map (·.1)).filterMap (ServiceGroup.extensions?
          (schemas.map (EntitySchema.entityType schemas)))).map .entityExtensions := by
  simp only [GeneratedModel.definitions, List.filter_append, List.filter_map, Function.comp_def,
    TypeDefinition.isOwn, List.filter_true, List.filter_false, List.map_nil, List.append_nil]
  rfl

theorem names_ownDefinitions (h : ServiceDomain.groups catalog = .ok services) :
    ((GeneratedModel.definitions schemas services).filter TypeDefinition.isOwn).map
        TypeDefinition.name =
      (Spelling.ofFamilies (families schemas catalog)).map Spelling.text := by
  have ha := names_aggregators schemas
  have hg : (services.map (·.1)).map ServiceGroup.name =
      (ServiceDomain.groupDomains catalog).map (Naming.domainName · ++ "Services") := by
    rw [← ServiceDomain.domains_of_groups_eq_ok h, List.map_map, List.map_map]
    exact List.map_congr_left fun result hm => ServiceDomain.name_of_mem_groups h hm
  have hr := ServiceDomain.recordNames_of_groups_eq_ok h
  have hl : ((GeneratedModel.definitions schemas services).filter TypeDefinition.isOwn).map
      TypeDefinition.name =
      [GeneratedModel.registrationName, RootAggregator.entitiesName] ++
      (DomainAggregator.ofSchemas schemas).map DomainAggregator.name ++
      schemas.map (EntitySchema.baseName schemas · ++ "Entity") ++
      schemas.map (EntitySchema.baseName schemas · ++ "EntityAttributes") ++
      [RootAggregator.servicesName] ++
      (services.map (·.1)).map ServiceGroup.name ++
      (services.flatMap (·.2)).map FieldRecord.name := by
    simp only [GeneratedModel.definitions, List.filter_append, List.filter_map, Function.comp_def,
      TypeDefinition.isOwn, List.filter_true, List.filter_false, List.map_nil, List.append_nil,
      List.map_append, List.map_map]
    rfl
  rw [hl, ha, hg, hr]
  simp [families, Spelling.ofFamilies, Function.comp_def, Spelling.text, NameEnding.text,
    RootAggregator.servicesName]

theorem names_definitions (h : ServiceDomain.groups catalog = .ok services) :
    (GeneratedModel.definitions schemas services).map TypeDefinition.name =
      (Spelling.ofFamilies (families schemas catalog ++ [extensionFamily schemas catalog])).map
        Spelling.text := by
  have hx := names_extensions (schemas.map (EntitySchema.entityType schemas)) (services.map (·.1))
  rw [List.map_map, Function.comp_def, ServiceDomain.domains_of_groups_eq_ok h] at hx
  simp only [List.any_map, Function.comp_def] at hx
  rw [definitions_eq_append, List.map_append, names_ownDefinitions h, List.map_map,
    Spelling.ofFamilies, Spelling.ofFamilies, List.flatMap_append, List.map_append]
  refine congrArg _ (hx.trans ?_)
  simp [extensionFamily, Function.comp_def, Spelling.text, NameEnding.text, EntitySchema.entityType]

structure DistinctStems (schemas : List EntitySchema) (catalog : List ServiceDomain) : Prop where
  domains : ((EntitySchema.domains schemas).map Naming.domainName).Nodup
  bases : (schemas.map (EntitySchema.baseName schemas)).Nodup
  groups : ((ServiceDomain.groupDomains catalog).map Naming.domainName).Nodup
  parameters : ((ServiceDomain.withServices catalog).flatMap ServiceDomain.recordStems).Nodup

theorem nodup_names_of_root (domains : List String) :
    ("" :: domains.map Naming.domainName).Nodup ↔ (domains.map Naming.domainName).Nodup := by
  simp [Naming.domainName_ne_empty]

theorem nodup_families :
    (∀ family ∈ families schemas catalog, family.2.Nodup) ↔ DistinctStems schemas catalog := by
  simp only [families, List.forall_mem_cons, nodup_names_of_root]
  constructor
  · rintro ⟨-, hd, hb, -, hg, hp, -⟩
    exact ⟨hd, hb, hg, hp⟩
  · rintro ⟨hd, hb, hg, hp⟩
    exact ⟨by simp, hd, hb, hb, hg, hp, by simp⟩

theorem DistinctStems.extensions (h : DistinctStems schemas catalog) :
    (extensionFamily schemas catalog).2.Nodup :=
  h.groups.sublist (List.filter_sublist.map _)

/-- Extensions make no name that clashes. -/
theorem nodup_names (h : ServiceDomain.groups catalog = .ok services) :
    ((GeneratedModel.definitions schemas services).map TypeDefinition.name).Nodup ↔
      DistinctStems schemas catalog := by
  rw [names_definitions h, List.nodup_map_iff Spelling.text_injective,
    Spelling.nodup_ofFamilies (by simp [families, extensionFamily]), List.forall_mem_append,
    nodup_families, List.forall_mem_singleton]
  exact and_iff_left_of_imp DistinctStems.extensions

end

end HomeHub
