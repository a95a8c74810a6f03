import HomeHub.Proofs.CatalogOrder
import HomeHub.Proofs.RecordKeys
import HomeHub.Proofs.TypeClash

/-!
# The definitions of services

Where the services of an entry are told apart by their names, and the fields of a service by theirs,
each declared service has a method and each declared field a definition that tells of nothing else.
Generation fails at a field type exactly where one is declared that is not in the vocabulary.
-/

namespace HomeHub

-- ---------------------------------------------------------------------------
-- Lookups of items with distinct names
-- ---------------------------------------------------------------------------

theorem perm_of_map_perm {name : α → String} {found items : List α} (hn : (items.map name).Nodup)
    (hm : ∀ item ∈ found, item ∈ items) (hp : (found.map name).Perm (items.map name)) :
    found.Perm items := by
  refine (List.perm_ext_iff_of_nodup (hp.nodup_iff.2 hn).of_map hn.of_map).2 fun item =>
    ⟨hm item, fun hi => ?_⟩
  obtain ⟨other, ho, heq⟩ := List.mem_map.1 (hp.mem_iff.2 (List.mem_map_of_mem hi))
  rwa [List.inj_on_of_nodup_map hn (hm other ho) hi heq] at ho

theorem lookups_perm {name : α → String} {items : List α} {keys : List String} {mark : String}
    (hn : (items.map name).Nodup) (hp : keys.Perm (items.map name)) :
    (((Naming.canonicalNames keys mark).filterMap fun named =>
      (lastWhere? (name · == named.sourceKey) items).map (named.identifier, ·)).map (·.2)).Perm
        items := by
  refine perm_of_map_perm hn (fun item hm => ?_) ?_
  · obtain ⟨pair, hpair, rfl⟩ := List.mem_map.1 hm
    exact mem_of_mem_lookups hpair
  · rw [List.map_map]
    refine .trans (keys_of_lookups_perm (fun key hk => ?_) ?_) hp
    · exact List.mem_map.1 (hp.mem_iff.1 hk)
    · exact fun _ _ hf => hf

theorem Service.describedFields_perm {service : Service} (h : service.HasDistinctFields) :
    (service.describedFields.map (·.2)).Perm service.fields :=
  lookups_perm h (.refl _)

theorem ServiceDomain.services_described_perm {entry : ServiceDomain}
    (h : (entry.services.map Service.name).Nodup) :
    (entry.described.map (·.2)).Perm entry.services :=
  lookups_perm h ((Text.sortedBy_perm _ _).map _)

theorem comp_of_mapM_eq_ok {f : String × α → Except ε β} {pairs : List (String × α)}
    {items : List α} {results : List β} {related : α → β → Prop} (hp : (pairs.map (·.2)).Perm items)
    (hm : pairs.mapM f = .ok results)
    (hr : ∀ pair ∈ pairs, ∀ result ∈ results, f pair = .ok result → related pair.2 result) :
    Relation.Comp List.Perm (List.Forall₂ related) items results := by
  refine ⟨pairs.map (·.2), hp.symm, List.forall₂_map_left_iff.2 ?_⟩
  clear hp
  rw [mapM_eq_ok] at hm
  induction hm with
  | nil => exact .nil
  | cons hf _ ih =>
    refine .cons (hr _ List.mem_cons_self _ List.mem_cons_self hf) (ih fun pair hp result hm => ?_)
    exact hr pair (List.mem_cons_of_mem _ hp) result (List.mem_cons_of_mem _ hm)

-- ---------------------------------------------------------------------------
-- Types outside the vocabulary
-- ---------------------------------------------------------------------------

namespace ServiceField

def HasForeignType (field : ServiceField) : Prop :=
  ∃ name, field.typeName = some name ∧ ∀ entry ∈ vocabulary, name ∉ entry.2

theorem typeNamed?_eq_none {name : String} :
    typeNamed? name = none ↔ ∀ entry ∈ vocabulary, name ∉ entry.2 := by
  simp only [typeNamed?, Option.map_eq_none_iff, List.find?_eq_none, List.contains_iff_mem]

theorem not_isKnown {field : ServiceField} : ¬ field.IsKnown ↔ field.HasForeignType := by
  simp only [IsKnown, HasForeignType, ← typeNamed?_eq_none, Classical.not_forall, exists_prop,
    Bool.not_eq_true, Option.isSome_eq_false_iff, Option.isNone_iff_eq_none]

theorem isKnown_of_resolvedType_eq_ok {field : ServiceField} {type : AttributeType}
    (h : field.resolvedType domain service = .ok type) : field.IsKnown := by
  intro name hn
  unfold resolvedType at h
  rw [hn] at h
  cases ht : typeNamed? name with
  | some known => rfl
  | none => simp [ht] at h

theorem resolvedType_eq_error {field : ServiceField} {error : GenerationError}
    (h : field.resolvedType domain service = .error error) : ∃ name, field.typeName = some name ∧
      typeNamed? name = none ∧ error = .unknownFieldType domain service field.name name := by
  unfold resolvedType at h
  split at h
  · cases h
  · rename_i name hn
    split at h
    · cases h
    · exact ⟨name, hn, ‹_›, (Except.error.inj h).symm⟩

end ServiceField

def GenerationError.Reports (catalog : List ServiceDomain) (error : GenerationError) : Prop :=
  ∃ entry ∈ catalog, ∃ service ∈ entry.services, ∃ field ∈ service.fields, ∃ name,
    field.typeName = some name ∧ field.HasForeignType ∧
      error = .unknownFieldType entry.domain service.name field.name name

namespace Service

theorem parameterRecord_eq_error {service : Service} {error : GenerationError}
    (h : service.parameterRecord domain identifier = .error error) :
    ∃ field ∈ service.fields, field.resolvedType domain service.name = .error error := by
  rcases bind_eq_error.1 h with hfields | ⟨_, -, hpure⟩
  · obtain ⟨pair, hm, hf⟩ := exists_of_mapM_eq_error hfields
    exact ⟨pair.2, mem_of_mem_lookups hm, map_result_eq_error.1 hf⟩
  · cases hpure

theorem method_eq_error {service : Service} {error : GenerationError}
    (h : service.method domain identifier = .error error) :
    ∃ field ∈ service.fields, field.resolvedType domain service.name = .error error := by
  unfold method at h
  split at h
  · cases h
  · rcases bind_eq_error.1 h with hrecord | ⟨_, -, hpure⟩
    · exact parameterRecord_eq_error hrecord
    · cases hpure

theorem isKnown_of_method_eq_ok {service : Service} (hd : service.HasDistinctFields)
    {result : ServiceMethod × Option FieldRecord} (h : service.method domain identifier = .ok result)
    {field : ServiceField} (hf : field ∈ service.fields) : field.IsKnown := by
  rcases method_eq_ok.1 h with ⟨hn, -⟩ | ⟨-, record, hr, -⟩
  · exact absurd hf (hn ▸ List.not_mem_nil)
  · obtain ⟨fields, hm, -⟩ := parameterRecord_eq_ok.1 hr
    obtain ⟨pair, hpair, rfl⟩ := List.mem_map.1 ((describedFields_perm hd).mem_iff.2 hf)
    obtain ⟨definition, -, hdefine⟩ := exists_of_mem_of_mapM_eq_ok hm hpair
    obtain ⟨type, ht, -⟩ := ServiceField.define_eq_ok.1 hdefine
    exact ServiceField.isKnown_of_resolvedType_eq_ok ht

end Service

namespace ServiceDomain

theorem group_eq_error {entry : ServiceDomain} {error : GenerationError}
    (h : entry.group = .error error) : ∃ service ∈ entry.services, ∃ field ∈ service.fields,
      field.resolvedType entry.domain service.name = .error error := by
  rcases bind_eq_error.1 h with hmethods | ⟨_, -, hpure⟩
  · obtain ⟨pair, hm, hf⟩ := exists_of_mapM_eq_error hmethods
    exact ⟨pair.2, mem_of_mem_lookups hm, Service.method_eq_error hf⟩
  · cases hpure

theorem groups_eq_error {catalog : List ServiceDomain} {error : GenerationError}
    (h : groups catalog = .error error) : error.Reports catalog := by
  obtain ⟨entry, he, hg⟩ := exists_of_mapM_eq_error h
  obtain ⟨service, hs, field, hf, hr⟩ := group_eq_error hg
  obtain ⟨name, hn, ht, rfl⟩ := ServiceField.resolvedType_eq_error hr
  exact ⟨entry, (mem_withServices.1 he).1, service, hs, field, hf, name, hn,
    ⟨name, hn, ServiceField.typeNamed?_eq_none.1 ht⟩, rfl⟩

theorem isKnown_of_groups_eq_ok {catalog : List ServiceDomain}
    (hd : ∀ entry ∈ catalog, entry.HasDistinctNames)
    {services : List (ServiceGroup × List FieldRecord)} (h : groups catalog = .ok services) :
    IsKnown catalog := by
  intro entry he service hs field hf
  have hwith := mem_withServices.2 ⟨he, List.ne_nil_of_mem hs⟩
  obtain ⟨result, -, hg⟩ := exists_of_mem_of_mapM_eq_ok h hwith
  obtain ⟨methods, hm, -, -⟩ := group_eq_ok.1 hg
  obtain ⟨pair, hp, rfl⟩ := List.mem_map.1 ((services_described_perm (hd entry he).services).mem_iff.2 hs)
  obtain ⟨method, -, hmethod⟩ := exists_of_mem_of_mapM_eq_ok hm hp
  exact Service.isKnown_of_method_eq_ok ((hd entry he).fields _ hs) hmethod hf

end ServiceDomain

-- ---------------------------------------------------------------------------
-- What services and fields are made into
-- ---------------------------------------------------------------------------

structure ServiceField.IsDefinedAs (domain service : String) (field : ServiceField)
    (definition : FieldDefinition) : Prop where
  sourceKey : definition.sourceKey = field.name
  fieldType : field.resolvedType domain service = .ok definition.fieldType
  required : definition.required = field.required
  description : definition.description = field.description

structure Service.IsTakenBy (domain : String) (service : Service) (record : FieldRecord) : Prop where
  origin : record.origin = domain ++ "." ++ service.name
  fields : Relation.Comp List.Perm (List.Forall₂ (ServiceField.IsDefinedAs domain service.name))
    service.fields record.fields

theorem Service.isTakenBy_of_parameterRecord_eq_ok {service : Service} (hd : service.HasDistinctFields)
    {record : FieldRecord} (h : service.parameterRecord domain identifier = .ok record) :
    service.IsTakenBy domain record := by
  obtain ⟨fields, hm, rfl⟩ := parameterRecord_eq_ok.1 h
  refine ⟨rfl, comp_of_mapM_eq_ok (describedFields_perm hd) hm fun _ _ _ _ hf => ?_⟩
  obtain ⟨type, ht, rfl⟩ := ServiceField.define_eq_ok.1 hf
  exact ⟨rfl, ht, rfl, rfl⟩

namespace GeneratedModel

def groupsOf (model : GeneratedModel) (domain : String) : List ServiceGroup :=
  (model.types.filterMap TypeDefinition.serviceGroup?).filter (·.domain == domain)

/-- A method stands for a service of a domain, with a record of parameters if and only if the service
has fields. -/
structure Offers (model : GeneratedModel) (domain : String) (service : Service)
    (method : ServiceMethod) : Prop where
  name : method.service = service.name
  description : method.description = service.description
  parameters : method.parameters = none ↔ service.fields = []
  record : ∀ name, method.parameters = some name → ∃ record,
    model.find? name = some (.serviceParameters record) ∧ service.IsTakenBy domain record

/-- A model has a group for each entry with services and no other, and in it a method for each
service. -/
structure DefinesServices (model : GeneratedModel) (catalog : List ServiceDomain) : Prop where
  groups : ∀ entry ∈ catalog, entry.services ≠ [] → ∃ group, model.groupsOf entry.domain = [group] ∧
    Relation.Comp List.Perm (List.Forall₂ (model.Offers entry.domain)) entry.services group.methods
  only : ∀ group, .serviceGroup group ∈ model.types →
    ∃ entry ∈ catalog, entry.services ≠ [] ∧ entry.domain = group.domain

structure FindsNames (schemas : List EntitySchema) (catalog : List ServiceDomain) : Prop where
  attributes : ∀ schema ∈ schemas, ∀ named ∈
    Naming.canonicalNames (schema.attributes.map Attribute.name) Naming.fieldMark,
      (lastWhere? (·.name == named.sourceKey) schema.attributes).isSome = true
  services : ∀ entry ∈ catalog, ∀ named ∈
    Naming.canonicalNames ((Text.sortedBy Service.name entry.services).map Service.name)
      Naming.fieldMark, (lastWhere? (·.name == named.sourceKey) entry.services).isSome = true
  fields : ∀ entry ∈ catalog, ∀ service ∈ entry.services, ∀ named ∈
    Naming.canonicalNames (service.fields.map ServiceField.name) Naming.fieldMark,
      (lastWhere? (·.name == named.sourceKey) service.fields).isSome = true

theorem findsNames (schemas : List EntitySchema) (catalog : List ServiceDomain) :
    FindsNames schemas catalog where
  attributes _ _ _ := isSome_lookup fun _ => List.mem_map.1
  services _ _ _ := isSome_lookup fun _ hk =>
    List.mem_map.1 (((Text.sortedBy_perm _ _).map _).mem_iff.1 hk)
  fields _ _ _ _ _ := isSome_lookup fun _ => List.mem_map.1

theorem groupsOf_definitions {schemas : List EntitySchema}
    {services : List (ServiceGroup × List FieldRecord)} (domain : String) :
    groupsOf ⟨definitions schemas services⟩ domain =
      (services.map (·.1)).filter (·.domain == domain) := by
  simp [groupsOf, definitions, List.filterMap_append, List.filterMap_cons, List.filterMap_map,
    Function.comp_def, TypeDefinition.serviceGroup?]

theorem groupsOf_eq_singleton {schemas : List EntitySchema} {catalog : List ServiceDomain}
    {services : List (ServiceGroup × List FieldRecord)}
    (hg : ServiceDomain.groups catalog = .ok services)
    (hnames : ((definitions schemas services).map TypeDefinition.name).Nodup)
    {result : ServiceGroup × List FieldRecord} (hr : result ∈ services) :
    groupsOf ⟨definitions schemas services⟩ result.1.domain = [result.1] := by
  have hdomains : ((services.map (·.1)).map ServiceGroup.domain).Nodup := by
    rw [List.map_map]
    exact ServiceDomain.domains_of_groups_eq_ok hg ▸ ((nodup_names hg).1 hnames).groups.of_map
  rw [groupsOf_definitions]
  exact filter_key_eq hdomains (List.mem_map_of_mem hr)

theorem offers_of_group_eq_ok {model : GeneratedModel} {entry : ServiceDomain}
    (hd : entry.HasDistinctNames) {group : ServiceGroup} {records : List FieldRecord}
    (h : entry.group = .ok (group, records))
    (found : ∀ record ∈ records, model.find? record.name = some (.serviceParameters record)) :
    Relation.Comp List.Perm (List.Forall₂ (model.Offers entry.domain)) entry.services
      group.methods := by
  obtain ⟨methods, hm, rfl, rfl⟩ := ServiceDomain.group_eq_ok.1 h
  have offered : ∀ pair ∈ entry.described, ∀ result ∈ methods,
      pair.2.method entry.domain pair.1 = .ok result →
        model.Offers entry.domain pair.2 result.1 := by
    intro pair hp result hr hf
    obtain ⟨method, record?⟩ := result
    have hfields := hd.fields pair.2 (ServiceDomain.mem_services_of_described hp)
    rcases Service.method_eq_ok.1 hf with ⟨hn, rfl, -⟩ | ⟨hn, record, hmade, rfl, rfl⟩
    · exact ⟨rfl, rfl, iff_of_true rfl hn, nofun⟩
    · refine ⟨rfl, rfl, iff_of_false nofun hn, fun name heq => ⟨record, ?_, ?_⟩⟩
      · obtain rfl := Option.some.inj heq
        exact found record (List.mem_filterMap.2 ⟨_, hr, rfl⟩)
      · exact Service.isTakenBy_of_parameterRecord_eq_ok hfields hmade
  have hpairs : Relation.Comp List.Perm (List.Forall₂ fun service result =>
      model.Offers entry.domain service result.1) entry.services methods :=
    comp_of_mapM_eq_ok (ServiceDomain.services_described_perm hd.services) hm offered
  obtain ⟨between, hperm, hoffers⟩ := hpairs
  exact ⟨between, hperm, List.forall₂_map_right_iff.2 hoffers⟩

theorem definesServices_of_generate_eq_ok {schemas : List EntitySchema}
    {catalog : List ServiceDomain} (hd : ∀ entry ∈ catalog, entry.HasDistinctNames)
    {model : GeneratedModel} (h : generate schemas catalog = .ok model) :
    model.DefinesServices catalog := by
  obtain ⟨services, hg, hc⟩ := bind_eq_ok.1 h
  obtain ⟨hnames, -, rfl⟩ := check_eq_ok.1 hc
  constructor
  · intro entry he hs
    obtain ⟨result, hr, hgroup⟩ :=
      exists_of_mem_of_mapM_eq_ok hg (ServiceDomain.mem_withServices.2 ⟨he, hs⟩)
    refine ⟨result.1, ?_, offers_of_group_eq_ok (hd entry he) hgroup fun record hrecord => ?_⟩
    · obtain ⟨methods, -, heq, -⟩ := ServiceDomain.group_eq_ok.1 hgroup
      have hdomain : result.1.domain = entry.domain := by rw [heq]
      rw [← hdomain, groupsOf_eq_singleton hg hnames hr]
    · exact find?_of_mem hnames
        (mem_serviceParameters.2 (List.mem_flatMap.2 ⟨result, hr, hrecord⟩))
  · intro group hgroup
    obtain ⟨result, hr, rfl⟩ := mem_serviceGroup.1 hgroup
    obtain ⟨entry, he, hentry⟩ := mem_of_mapM_eq_ok hg hr
    obtain ⟨methods, -, heq, -⟩ := ServiceDomain.group_eq_ok.1 hentry
    obtain ⟨hc, hs⟩ := ServiceDomain.mem_withServices.1 he
    exact ⟨entry, hc, hs, by rw [heq]⟩

theorem reports_of_generate_eq_unknownFieldType {schemas : List EntitySchema}
    {catalog : List ServiceDomain}
    (h : generate schemas catalog = .error (.unknownFieldType domain service field name)) :
    (GenerationError.unknownFieldType domain service field name).Reports catalog := by
  rcases bind_eq_error.1 h with hg | ⟨services, -, hc⟩
  · exact ServiceDomain.groups_eq_error hg
  · exact absurd hc (check_ne_unknownFieldType _ _ _ _ _)

theorem generate_eq_unknownFieldType {schemas : List EntitySchema} {catalog : List ServiceDomain}
    (hd : ∀ entry ∈ catalog, entry.HasDistinctNames) :
    (∃ domain service field name,
      generate schemas catalog = .error (.unknownFieldType domain service field name)) ↔
        ∃ entry ∈ catalog, ∃ service ∈ entry.services, ∃ field ∈ service.fields,
          field.HasForeignType := by
  constructor
  · rintro ⟨domain, service, field, name, h⟩
    obtain ⟨entry, he, service, hs, field, hf, name, -, ht, -⟩ :=
      reports_of_generate_eq_unknownFieldType h
    exact ⟨entry, he, service, hs, field, hf, ht⟩
  · rintro ⟨entry, he, service, hs, field, hf, ht⟩
    cases hg : ServiceDomain.groups catalog with
    | ok services =>
      have hknown := ServiceDomain.isKnown_of_groups_eq_ok hd hg entry he service hs field hf
      exact absurd hknown (ServiceField.not_isKnown.2 ht)
    | error error =>
      obtain ⟨entry, -, service, -, field, -, name, -, -, rfl⟩ := ServiceDomain.groups_eq_error hg
      exact ⟨_, _, _, _, bind_eq_error.2 (.inl hg)⟩

theorem generate_filter_services (schemas : List EntitySchema) (catalog : List ServiceDomain) :
    generate schemas (catalog.filter fun entry => !entry.services.isEmpty) =
      generate schemas catalog := by
  simp only [generate, ServiceDomain.groups, ServiceDomain.withServices, List.filter_filter,
    Bool.and_self]

/-- Each declared service and field gets a definition of its own, or generation fails at a type that
is not in the vocabulary. -/
theorem defines_services (schemas : List EntitySchema) (catalog : List ServiceDomain)
    (hd : ∀ entry ∈ catalog, entry.HasDistinctNames) :
    ((∃ domain service field name,
        generate schemas catalog = .error (.unknownFieldType domain service field name)) ↔
      ∃ entry ∈ catalog, ∃ service ∈ entry.services, ∃ field ∈ service.fields,
        field.HasForeignType) ∧
    (∀ model, generate schemas catalog = .ok model → model.DefinesServices catalog) ∧
    generate schemas (catalog.filter fun entry => !entry.services.isEmpty) =
      generate schemas catalog ∧
    FindsNames schemas catalog :=
  ⟨generate_eq_unknownFieldType hd, fun _ h => definesServices_of_generate_eq_ok hd h,
    generate_filter_services schemas catalog, findsNames schemas catalog⟩

def brightSwitch : Service := ⟨"turn_on", none,
  [⟨"rgb color", some "color", true, none⟩, ⟨"rgb_color", some "number", false, some "One number."⟩]⟩

def plainSwitch : Service := ⟨"turnOn", some "No color.", []⟩

def switches : ServiceDomain := ⟨"light", [plainSwitch, brightSwitch]⟩

def switchCatalog : List ServiceDomain := [switches, ⟨"sun", []⟩]

def switchRecord : FieldRecord := ⟨"LightTurnOn_1Parameters", "light.turn_on",
  [⟨"RgbColor_0", "rgb color", .string, true, none⟩,
    ⟨"RgbColor_1", "rgb_color", .number, false, some "One number."⟩]⟩

def switchMethods : List (ServiceMethod × Option FieldRecord) :=
  [(⟨"TurnOn_0", "turnOn", some "No color.", none⟩, none),
    (⟨"TurnOn_1", "turn_on", none, some "LightTurnOn_1Parameters"⟩, some switchRecord)]

def switchGroup : ServiceGroup := ⟨"LightServices", "light", switchMethods.map (·.1)⟩

theorem describedFields_brightSwitch : brightSwitch.describedFields =
    [("RgbColor_0", ⟨"rgb color", some "color", true, none⟩),
      ("RgbColor_1", ⟨"rgb_color", some "number", false, some "One number."⟩)] := by
  have hkeys : brightSwitch.fields.map ServiceField.name = ["rgb color", "rgb_color"] := rfl
  rw [Service.describedFields, hkeys, Naming.canonicalNames,
    Text.sortedByBoth_of_pairwise (by decide +kernel)]
  decide +kernel

theorem described_switches :
    switches.described = [("TurnOn_0", plainSwitch), ("TurnOn_1", brightSwitch)] := by
  have hsorted : Text.sortedBy Service.name switches.services = [plainSwitch, brightSwitch] :=
    Text.sortedBy_of_pairwise (by decide +kernel)
  have hkeys : [plainSwitch, brightSwitch].map Service.name = ["turnOn", "turn_on"] := rfl
  simp only [ServiceDomain.described, hsorted, hkeys, Naming.canonicalNames]
  rw [Text.sortedByBoth_of_pairwise (by decide +kernel)]
  decide +kernel

theorem generate_switchCatalog :
    generate [] switchCatalog = .ok ⟨definitions [] [(switchGroup, [switchRecord])]⟩ := by
  have hrecord : brightSwitch.parameterRecord "light" "TurnOn_1" = .ok switchRecord :=
    Service.parameterRecord_eq_ok.2
      ⟨switchRecord.fields, by rw [describedFields_brightSwitch]; rfl, by decide +kernel⟩
  have hmethods : switches.described.mapM
      (fun entry => entry.2.method switches.domain entry.1) = .ok switchMethods := by
    rw [described_switches, mapM_eq_ok]
    exact .cons (Service.method_eq_ok.2 (.inl ⟨rfl, rfl, rfl⟩))
      (.cons (Service.method_eq_ok.2 (.inr ⟨List.cons_ne_nil _ _, _, hrecord, rfl, rfl⟩)) .nil)
  have hgroup : switches.group = .ok (switchGroup, [switchRecord]) :=
    ServiceDomain.group_eq_ok.2 ⟨switchMethods, hmethods, by decide +kernel, by decide +kernel⟩
  have hservices : ServiceDomain.withServices switchCatalog = [switches] := by decide +kernel
  refine bind_eq_ok.2 ⟨[(switchGroup, [switchRecord])], ?_,
    check_eq_ok.2 ⟨by decide +kernel, by decide +kernel, rfl⟩⟩
  rw [ServiceDomain.groups, hservices]
  exact mapM_eq_ok.2 (.cons hgroup .nil)

theorem defines_switches : (∀ entry ∈ switchCatalog, entry.HasDistinctNames) ∧
    ∃ model, generate [] switchCatalog = .ok model ∧ model.DefinesServices switchCatalog := by
  have hd : ∀ entry ∈ switchCatalog, entry.HasDistinctNames := by
    refine List.forall_mem_cons.2 ⟨⟨by decide, ?_⟩, List.forall_mem_singleton.2 ⟨by decide, nofun⟩⟩
    simp [switches, plainSwitch, brightSwitch, Service.HasDistinctFields]
  exact ⟨hd, _, generate_switchCatalog,
    (defines_services [] switchCatalog hd).2.1 _ generate_switchCatalog⟩

end GeneratedModel

end HomeHub
