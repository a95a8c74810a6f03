import HomeHub.Model.Services
import HomeHub.Proofs.Sorted
import HomeHub.Proofs.Success
import Mathlib.Data.List.Basic

/-!
# Groups of services

A catalog entry has a method for each declared service. What a method is described by is the last
service of that name, so of services under one name the earlier ones lend only their count.
-/

namespace HomeHub

namespace Naming

def identifiers (keys : List String) (mark : String) : List String :=
  dedupe (keys.map fun key => ⟨resolve key mark, key⟩)

theorem canonicalNames_perm (keys : List String) (mark : String) :
    (canonicalNames keys mark).Perm (List.zipWith Named.mk (identifiers keys mark) keys) := by
  refine (Text.sortedByBoth_perm _ _ _).trans (.of_eq ?_)
  rw [List.zipWith_map_left, List.zipWith_comm]
  rfl

end Naming

theorem lastWhere?_eq_some {test : α → Bool} {items : List α} {item : α}
    (h : lastWhere? test items = some item) : item ∈ items ∧ test item = true :=
  ⟨List.mem_reverse.1 (List.mem_of_find?_eq_some h), List.find?_some h⟩

theorem isSome_lastWhere? {test : α → Bool} {items : List α} {item : α} (hm : item ∈ items)
    (h : test item = true) : (lastWhere? test items).isSome = true :=
  List.find?_isSome.2 ⟨item, List.mem_reverse.2 hm, h⟩

theorem mem_of_mem_lookups {name : α → String} {items : List α} {names : List Naming.Named}
    {pair : String × α}
    (h : pair ∈ names.filterMap fun named =>
      (lastWhere? (name · == named.sourceKey) items).map (named.identifier, ·)) :
    pair.2 ∈ items := by
  obtain ⟨named, -, hn⟩ := List.mem_filterMap.1 h
  obtain ⟨item, hi, rfl⟩ := Option.map_eq_some_iff.1 hn
  exact (lastWhere?_eq_some hi).1

namespace ServiceDomain

def identified (entry : ServiceDomain) : List (String × Service) :=
  let services := Text.sortedBy Service.name entry.services
  (Naming.identifiers (services.map Service.name) Naming.fieldMark).zip services

/-- The service that is described where a declared one is asked for: the last of its name. -/
def standIn (entry : ServiceDomain) (service : Service) : Service :=
  (lastWhere? (·.name == service.name) entry.services).getD service

def described (entry : ServiceDomain) : List (String × Service) :=
  let services := Text.sortedBy Service.name entry.services
  (Naming.canonicalNames (services.map Service.name) Naming.fieldMark).filterMap fun named =>
    (lastWhere? (·.name == named.sourceKey) entry.services).map (named.identifier, ·)

theorem lastWhere?_standIn {entry : ServiceDomain} {service : Service}
    (h : service ∈ entry.services) :
    lastWhere? (·.name == service.name) entry.services = some (entry.standIn service) := by
  have hs : (lastWhere? (·.name == service.name) entry.services).isSome = true :=
    isSome_lastWhere? h (by simp)
  obtain ⟨found, hf⟩ := Option.isSome_iff_exists.1 hs
  simp [standIn, hf]

theorem mem_services_of_identified {entry : ServiceDomain} {pair : String × Service}
    (h : pair ∈ entry.identified) : pair.2 ∈ entry.services :=
  (Text.sortedBy_perm _ _).mem_iff.1 (List.of_mem_zip h).2

/-- Each declared service has a method, which its stand-in describes. -/
theorem described_perm (entry : ServiceDomain) :
    entry.described.Perm (entry.identified.map fun pair => (pair.1, entry.standIn pair.2)) := by
  refine ((Naming.canonicalNames_perm _ _).filterMap _).trans (.of_eq ?_)
  rw [List.zipWith_map_right, ← List.map_uncurry_zip_eq_zipWith, List.filterMap_map]
  refine List.filterMap_eq_map_iff_forall_eq_some.2 ?_
  rintro ⟨identifier, service⟩ hm
  simp [lastWhere?_standIn (mem_services_of_identified hm)]

theorem mem_services_of_described {entry : ServiceDomain} {pair : String × Service}
    (h : pair ∈ entry.described) : pair.2 ∈ entry.services :=
  mem_of_mem_lookups h

end ServiceDomain

-- ---------------------------------------------------------------------------
-- Methods and their parameter records
-- ---------------------------------------------------------------------------

/-- The declared type of a field is a known one, or the field declares none. -/
def ServiceField.IsKnown (field : ServiceField) : Prop :=
  ∀ name, field.typeName = some name → (ServiceField.typeNamed? name).isSome = true

theorem ServiceField.exists_define_ok {field : ServiceField} (h : field.IsKnown)
    (domain service identifier : String) :
    ∃ definition, field.define domain service identifier = .ok definition := by
  unfold define resolvedType
  cases ht : field.typeName with
  | none => exact ⟨_, rfl⟩
  | some name =>
    obtain ⟨type, hk⟩ := Option.isSome_iff_exists.1 (h name ht)
    exact ⟨_, by simp only [hk, Except.map]; rfl⟩

theorem ServiceField.define_eq_ok {field : ServiceField} {definition : FieldDefinition} :
    field.define domain service identifier = .ok definition ↔
      ∃ type, field.resolvedType domain service = .ok type ∧
        definition = ⟨identifier, field.name, type, field.required, field.description⟩ := by
  simp only [define, map_result_eq_ok, eq_comm (b := definition)]

theorem ServiceField.identifier_of_define_eq_ok {field : ServiceField} {definition : FieldDefinition}
    (h : field.define domain service identifier = .ok definition) :
    definition.identifier = identifier := by
  obtain ⟨type, -, rfl⟩ := define_eq_ok.1 h
  rfl

namespace Service

def describedFields (service : Service) : List (String × ServiceField) :=
  (Naming.canonicalNames (service.fields.map ServiceField.name) Naming.fieldMark).filterMap
    fun named =>
      (lastWhere? (·.name == named.sourceKey) service.fields).map (named.identifier, ·)

theorem mem_fields_of_described {service : Service} {pair : String × ServiceField}
    (h : pair ∈ service.describedFields) : pair.2 ∈ service.fields :=
  mem_of_mem_lookups h

theorem parameterRecord_eq_ok {service : Service} {record : FieldRecord} :
    service.parameterRecord domain identifier = .ok record ↔
      ∃ fields, service.describedFields.mapM (fun (identifier, field) =>
          field.define domain service.name identifier) = .ok fields ∧
        record = ⟨Naming.domainName domain ++ identifier ++ "Parameters",
          domain ++ "." ++ service.name, fields⟩ := by
  simp only [parameterRecord, bind_eq_ok, pure_eq_ok, eq_comm (b := record)]
  rfl

theorem method_eq_ok {service : Service} {method : ServiceMethod} {record? : Option FieldRecord} :
    service.method domain identifier = .ok (method, record?) ↔
      service.fields = [] ∧ method = ⟨identifier, service.name, service.description, none⟩ ∧
          record? = none ∨
        service.fields ≠ [] ∧ ∃ record, service.parameterRecord domain identifier = .ok record ∧
          method = ⟨identifier, service.name, service.description, some record.name⟩ ∧
          record? = some record := by
  unfold Service.method
  cases hf : service.fields with
  | nil =>
    simp only [List.isEmpty_nil, if_true, pure_eq_ok, Prod.mk.injEq]
    simp [eq_comm]
  | cons field rest =>
    simp only [List.isEmpty_cons, Bool.false_eq_true, if_false, bind_eq_ok, pure_eq_ok,
      Prod.mk.injEq]
    simp [eq_comm]

/-- What names the parameter record of a method, without the ending. -/
def recordStem? (domain : String) : String × Service → Option String
  | (identifier, service) =>
    if service.fields = [] then none else some (Naming.domainName domain ++ identifier)

theorem name_of_method_eq_ok {service : Service} {method : ServiceMethod}
    {record? : Option FieldRecord} (h : service.method domain identifier = .ok (method, record?)) :
    record?.map FieldRecord.name =
      (recordStem? domain (identifier, service)).map (· ++ "Parameters") := by
  rcases method_eq_ok.1 h with ⟨hf, -, rfl⟩ | ⟨hf, record, hr, -, rfl⟩
  · simp [recordStem?, hf]
  · obtain ⟨fields, -, rfl⟩ := parameterRecord_eq_ok.1 hr
    simp [recordStem?, hf]

theorem parameters_of_method_eq_ok {service : Service} {method : ServiceMethod}
    {record? : Option FieldRecord} (h : service.method domain identifier = .ok (method, record?)) :
    method.parameters = record?.map FieldRecord.name ∧
      ∀ record, record? = some record → record.origin = method.qualifiedName domain := by
  rcases method_eq_ok.1 h with ⟨-, rfl, rfl⟩ | ⟨-, record, hr, rfl, rfl⟩
  · exact ⟨rfl, by simp⟩
  · obtain ⟨fields, -, rfl⟩ := parameterRecord_eq_ok.1 hr
    refine ⟨rfl, fun found hf => ?_⟩
    obtain rfl := Option.some.inj hf
    simp [ServiceMethod.qualifiedName, String.append_assoc]

theorem identifier_of_method_eq_ok {service : Service} {method : ServiceMethod}
    {record? : Option FieldRecord} (h : service.method domain identifier = .ok (method, record?)) :
    method.identifier = identifier := by
  rcases method_eq_ok.1 h with ⟨-, rfl, -⟩ | ⟨-, record, -, rfl, -⟩ <;> rfl

theorem exists_method_ok {service : Service} (h : ∀ field ∈ service.fields, field.IsKnown)
    (domain identifier : String) : ∃ result, service.method domain identifier = .ok result := by
  by_cases hf : service.fields = []
  · exact ⟨_, method_eq_ok.2 (.inl ⟨hf, rfl, rfl⟩)⟩
  · obtain ⟨fields, hr⟩ := exists_mapM_ok.2 fun (pair : String × ServiceField)
      (hm : pair ∈ service.describedFields) =>
        ServiceField.exists_define_ok (h _ (mem_fields_of_described hm)) domain service.name pair.1
    exact ⟨_, method_eq_ok.2 (.inr ⟨hf, _, parameterRecord_eq_ok.2 ⟨fields, hr, rfl⟩, rfl, rfl⟩)⟩

end Service

-- ---------------------------------------------------------------------------
-- Groups
-- ---------------------------------------------------------------------------

namespace ServiceDomain

theorem group_eq_ok {entry : ServiceDomain} {group : ServiceGroup} {records : List FieldRecord} :
    entry.group = .ok (group, records) ↔
      ∃ methods, entry.described.mapM (fun (identifier, service) =>
          service.method entry.domain identifier) = .ok methods ∧
        group = ⟨Naming.domainName entry.domain ++ "Services", entry.domain, methods.map (·.1)⟩ ∧
        records = methods.filterMap (·.2) := by
  simp only [ServiceDomain.group, bind_eq_ok, pure_eq_ok, Prod.mk.injEq, eq_comm (b := group),
    eq_comm (b := records)]
  rfl

/-- The records of a group are those of the services that describe a method. -/
theorem mem_records {entry : ServiceDomain} {group : ServiceGroup}
    {records : List FieldRecord} (h : entry.group = .ok (group, records)) {record : FieldRecord} :
    record ∈ records ↔ ∃ identifier service, (identifier, service) ∈ entry.described ∧
      service.fields ≠ [] ∧ service.parameterRecord entry.domain identifier = .ok record := by
  obtain ⟨methods, hm, -, rfl⟩ := group_eq_ok.1 h
  constructor
  · intro hr
    obtain ⟨⟨method, record?⟩, hmethod, rfl⟩ := List.mem_filterMap.1 hr
    obtain ⟨⟨identifier, service⟩, hd, hmethod⟩ := mem_of_mapM_eq_ok hm hmethod
    rcases Service.method_eq_ok.1 hmethod with ⟨-, -, hn⟩ | ⟨hf, made, hmade, -, hs⟩
    · cases hn
    · obtain rfl := Option.some.inj hs
      exact ⟨identifier, service, hd, hf, hmade⟩
  · rintro ⟨identifier, service, hd, hf, hmade⟩
    obtain ⟨⟨method, record?⟩, hmethod, heq⟩ := exists_of_mem_of_mapM_eq_ok hm hd
    rcases Service.method_eq_ok.1 heq with ⟨hn, -⟩ | ⟨-, made, hmade', -, rfl⟩
    · exact absurd hn hf
    · obtain rfl := Except.ok.inj (hmade.symm.trans hmade')
      exact List.mem_filterMap.2 ⟨_, hmethod, rfl⟩

def recordStems (entry : ServiceDomain) : List String :=
  entry.described.filterMap (Service.recordStem? entry.domain)

theorem names_of_group_eq_ok {entry : ServiceDomain} {group : ServiceGroup}
    {records : List FieldRecord} (h : entry.group = .ok (group, records)) :
    records.map FieldRecord.name = entry.recordStems.map (· ++ "Parameters") := by
  obtain ⟨methods, hm, -, rfl⟩ := group_eq_ok.1 h
  rw [recordStems, List.map_filterMap, List.map_filterMap]
  exact filterMap_of_mapM_eq_ok hm fun _ _ hr => Service.name_of_method_eq_ok hr

theorem parameters_of_group_eq_ok {entry : ServiceDomain} {group : ServiceGroup}
    {records : List FieldRecord} (h : entry.group = .ok (group, records)) :
    group.methods.filterMap ServiceMethod.parameters = records.map FieldRecord.name := by
  obtain ⟨methods, hm, rfl, rfl⟩ := group_eq_ok.1 h
  rw [List.filterMap_map, List.map_filterMap]
  refine List.filterMap_congr fun result hr => ?_
  obtain ⟨pair, -, hp⟩ := mem_of_mapM_eq_ok hm hr
  exact (Service.parameters_of_method_eq_ok hp).1

theorem exists_record_of_group_eq_ok {entry : ServiceDomain} {group : ServiceGroup}
    {records : List FieldRecord} (h : entry.group = .ok (group, records)) {method : ServiceMethod}
    (hm : method ∈ group.methods) {name : String} (hn : method.parameters = some name) :
    ∃ record ∈ records, record.name = name ∧ record.origin = method.qualifiedName group.domain := by
  obtain ⟨methods, hr, rfl, rfl⟩ := group_eq_ok.1 h
  obtain ⟨⟨_, record?⟩, hp, rfl⟩ := List.mem_map.1 hm
  obtain ⟨pair, -, hf⟩ := mem_of_mapM_eq_ok hr hp
  obtain ⟨hparameters, horigin⟩ := Service.parameters_of_method_eq_ok hf
  obtain ⟨record, rfl, rfl⟩ := Option.map_eq_some_iff.1 (hparameters.symm.trans hn)
  exact ⟨record, List.mem_filterMap.2 ⟨_, hp, rfl⟩, rfl, horigin record rfl⟩

theorem exists_group_ok {entry : ServiceDomain}
    (h : ∀ service ∈ entry.services, ∀ field ∈ service.fields, field.IsKnown) :
    ∃ result, entry.group = .ok result := by
  obtain ⟨methods, hm⟩ := exists_mapM_ok.2 fun (pair : String × Service)
    (hp : pair ∈ entry.described) =>
      Service.exists_method_ok (h _ (mem_services_of_described hp)) entry.domain pair.1
  exact ⟨_, group_eq_ok.2 ⟨methods, hm, rfl, rfl⟩⟩

theorem mem_withServices {catalog : List ServiceDomain} {entry : ServiceDomain} :
    entry ∈ withServices catalog ↔ entry ∈ catalog ∧ entry.services ≠ [] := by
  simp [withServices, (Text.sortedBy_perm _ _).mem_iff]

def groupDomains (catalog : List ServiceDomain) : List String :=
  (withServices catalog).map ServiceDomain.domain

theorem domains_of_groups_eq_ok {catalog : List ServiceDomain}
    {services : List (ServiceGroup × List FieldRecord)} (h : groups catalog = .ok services) :
    services.map (·.1.domain) = groupDomains catalog := by
  refine map_of_mapM_eq_ok h fun entry result hr => ?_
  obtain ⟨methods, -, hg, -⟩ := group_eq_ok.1 hr
  simp [hg]

theorem name_of_mem_groups {catalog : List ServiceDomain}
    {services : List (ServiceGroup × List FieldRecord)} (h : groups catalog = .ok services)
    {result : ServiceGroup × List FieldRecord} (hm : result ∈ services) :
    result.1.name = Naming.domainName result.1.domain ++ "Services" := by
  obtain ⟨entry, -, hr⟩ := mem_of_mapM_eq_ok h hm
  obtain ⟨methods, -, hg, -⟩ := group_eq_ok.1 hr
  simp [hg]

theorem parameters_of_groups_eq_ok {catalog : List ServiceDomain}
    {services : List (ServiceGroup × List FieldRecord)} (h : groups catalog = .ok services) :
    (services.flatMap (·.1.methods)).filterMap ServiceMethod.parameters =
      (services.flatMap (·.2)).map FieldRecord.name := by
  rw [List.filterMap_flatMap, List.map_flatMap]
  refine List.flatMap_congr fun result hr => ?_
  obtain ⟨entry, -, he⟩ := mem_of_mapM_eq_ok h hr
  exact parameters_of_group_eq_ok he

theorem recordNames_of_groups_eq_ok {catalog : List ServiceDomain}
    {services : List (ServiceGroup × List FieldRecord)} (h : groups catalog = .ok services) :
    (services.flatMap (·.2)).map FieldRecord.name =
      ((withServices catalog).flatMap recordStems).map (· ++ "Parameters") := by
  have hm : services.map (fun result => result.2.map FieldRecord.name) =
      (withServices catalog).map fun entry => (recordStems entry).map (· ++ "Parameters") :=
    map_of_mapM_eq_ok h fun _ _ hr => names_of_group_eq_ok hr
  simpa [List.flatMap, List.map_flatten, Function.comp_def] using congrArg List.flatten hm

theorem exists_groups_ok {catalog : List ServiceDomain}
    (h : ∀ entry ∈ catalog, ∀ service ∈ entry.services, ∀ field ∈ service.fields, field.IsKnown) :
    ∃ services, groups catalog = .ok services :=
  exists_mapM_ok.2 fun _ hm => exists_group_ok (h _ (mem_withServices.1 hm).1)

end ServiceDomain

end HomeHub
