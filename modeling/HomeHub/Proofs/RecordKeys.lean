import HomeHub.Proofs.Coherence
import HomeHub.Proofs.DocumentCatalog

/-!
# The keys of records

An attribute record has one field for each attribute of its schema, and a parameter record one for
each declared field. So an attribute record never has two fields under one key. A parameter record
made from a document does where sections of one service have leaves of one name: putting a tree flat
forgets which section a leaf stood in.
-/

namespace HomeHub

def FieldRecord.sourceKeys (record : FieldRecord) : List String :=
  record.fields.map FieldDefinition.sourceKey

-- ---------------------------------------------------------------------------
-- Lookups by source key
-- ---------------------------------------------------------------------------

theorem Naming.sourceKeys_canonicalNames_perm (keys : List String) (mark : String) :
    ((canonicalNames keys mark).map Named.sourceKey).Perm keys := by
  refine ((canonicalNames_perm keys mark).map _).trans (.of_eq ?_)
  rw [← List.map_uncurry_zip_eq_zipWith, List.map_map]
  exact List.map_snd_zip (by simp [identifiers, length_dedupe])

theorem Naming.identifiers_canonicalNames_perm (keys : List String) (mark : String) :
    ((canonicalNames keys mark).map Named.identifier).Perm (identifiers keys mark) := by
  refine ((canonicalNames_perm keys mark).map _).trans (.of_eq ?_)
  rw [← List.map_uncurry_zip_eq_zipWith, List.map_map]
  exact List.map_fst_zip (by simp [identifiers, length_dedupe])

theorem isSome_lookup {name : α → String} {items : List α} {keys : List String} {mark : String}
    (hk : ∀ key ∈ keys, ∃ item ∈ items, name item = key) {named : Naming.Named}
    (hm : named ∈ Naming.canonicalNames keys mark) :
    (lastWhere? (name · == named.sourceKey) items).isSome = true := by
  have hkeys := Naming.sourceKeys_canonicalNames_perm keys mark
  obtain ⟨item, hi, hn⟩ := hk _ (hkeys.mem_iff.1 (List.mem_map_of_mem hm))
  exact isSome_lastWhere? hi (beq_iff_eq.2 hn)

theorem map_lookups {name : α → String} {items : List α} {keys : List String} {mark : String}
    {build : Naming.Named → α → β} {told : β → String} {foretold : Naming.Named → String}
    (hk : ∀ key ∈ keys, ∃ item ∈ items, name item = key)
    (hb : ∀ named found, name found = named.sourceKey → told (build named found) = foretold named) :
    ((Naming.canonicalNames keys mark).filterMap fun named =>
      (lastWhere? (name · == named.sourceKey) items).map (build named)).map told =
        (Naming.canonicalNames keys mark).map foretold := by
  rw [List.map_filterMap]
  refine List.filterMap_eq_map_iff_forall_eq_some.2 fun named hm => ?_
  obtain ⟨found, hf⟩ := Option.isSome_iff_exists.1 (isSome_lookup hk hm)
  rw [hf]
  exact congrArg some (hb named found (eq_of_beq (lastWhere?_eq_some hf).2))

theorem keys_of_lookups_perm {name : α → String} {items : List α} {keys : List String}
    {mark : String} {build : Naming.Named → α → β} {key : β → String}
    (hk : ∀ key ∈ keys, ∃ item ∈ items, name item = key)
    (hb : ∀ named found, name found = named.sourceKey → key (build named found) = named.sourceKey) :
    (((Naming.canonicalNames keys mark).filterMap fun named =>
      (lastWhere? (name · == named.sourceKey) items).map (build named)).map key).Perm keys := by
  rw [map_lookups hk hb]
  exact Naming.sourceKeys_canonicalNames_perm keys mark

theorem identifiers_of_lookups_perm {name : α → String} {items : List α} {keys : List String}
    {mark : String} {build : Naming.Named → α → β} {identifier : β → String}
    (hk : ∀ key ∈ keys, ∃ item ∈ items, name item = key)
    (hb : ∀ named found, identifier (build named found) = named.identifier) :
    (((Naming.canonicalNames keys mark).filterMap fun named =>
      (lastWhere? (name · == named.sourceKey) items).map (build named)).map identifier).Perm
        (Naming.identifiers keys mark) := by
  rw [map_lookups hk fun named found _ => hb named found]
  exact Naming.identifiers_canonicalNames_perm keys mark

/-- The attributes of a group of samples are told apart by their names. -/
theorem EntitySchema.nodup_attributes_ofMembers {domain : String} {flag : Bool}
    {samples : List EntitySample} :
    ((ofMembers domain flag samples).attributes.map Attribute.name).Nodup := by
  simpa [ofMembers, attributeKeys, Function.comp_def] using Text.nodup_ascending _

theorem EntitySchema.sourceKeys_attributeRecord_perm (schemas : List EntitySchema)
    (schema : EntitySchema) :
    (schema.attributeRecord schemas).sourceKeys.Perm (schema.attributes.map Attribute.name) :=
  keys_of_lookups_perm (fun _ => List.mem_map.1) fun _ _ _ => rfl

theorem EntitySchema.nodup_sourceKeys_attributeRecord {schemas : List EntitySchema} {domain : String}
    {flag : Bool} {samples : List EntitySample} :
    ((ofMembers domain flag samples).attributeRecord schemas).sourceKeys.Nodup :=
  (sourceKeys_attributeRecord_perm _ _).nodup_iff.2 nodup_attributes_ofMembers

theorem Service.names_describedFields_perm (service : Service) :
    (service.describedFields.map (·.2.name)).Perm (service.fields.map ServiceField.name) :=
  keys_of_lookups_perm (fun _ => List.mem_map.1) fun _ _ hn => hn

theorem Service.sourceKeys_parameterRecord_perm {service : Service} {record : FieldRecord}
    (h : service.parameterRecord domain identifier = .ok record) :
    record.sourceKeys.Perm (service.fields.map ServiceField.name) := by
  obtain ⟨fields, hf, rfl⟩ := parameterRecord_eq_ok.1 h
  refine .trans (.of_eq ?_) service.names_describedFields_perm
  refine map_of_mapM_eq_ok hf fun pair definition hd => ?_
  obtain ⟨type, -, rfl⟩ := ServiceField.define_eq_ok.1 hd
  rfl

-- ---------------------------------------------------------------------------
-- The records of a model
-- ---------------------------------------------------------------------------

namespace GeneratedModel

theorem exists_service_of_serviceParameters {schemas : List EntitySchema}
    {catalog : List ServiceDomain} {model : GeneratedModel} (h : generate schemas catalog = .ok model)
    {record : FieldRecord} (hr : .serviceParameters record ∈ model.types) :
    ∃ entry ∈ catalog, ∃ service ∈ entry.services,
      record.origin = entry.domain ++ "." ++ service.name ∧
        record.sourceKeys.Perm (service.fields.map ServiceField.name) := by
  obtain ⟨services, hg, hc⟩ := bind_eq_ok.1 h
  obtain ⟨-, -, rfl⟩ := check_eq_ok.1 hc
  obtain ⟨⟨group, records⟩, hresult, hr⟩ := List.mem_flatMap.1 (mem_serviceParameters.1 hr)
  obtain ⟨entry, he, hentry⟩ := mem_of_mapM_eq_ok hg hresult
  obtain ⟨identifier, service, hd, -, hmade⟩ := (ServiceDomain.mem_records hentry).1 hr
  obtain ⟨fields, -, rfl⟩ := Service.parameterRecord_eq_ok.1 hmade
  exact ⟨entry, (ServiceDomain.mem_withServices.1 he).1, service,
    ServiceDomain.mem_services_of_described hd, rfl, Service.sourceKeys_parameterRecord_perm hmade⟩

end GeneratedModel

-- ---------------------------------------------------------------------------
-- Records made from a document
-- ---------------------------------------------------------------------------

def FieldTree.HasDistinctLeaves (fields : List (String × FieldTree)) : Prop :=
  ∀ path leaf other later, Reaches fields path leaf → ¬ leaf.IsSection →
    Reaches fields other later → ¬ later.IsSection → path.getLast? = other.getLast? → path = other

/-- A parameter record has a field for each leaf of a service, so it has distinct keys if and only
if the leaves have distinct names. -/
structure FieldRecord.IsKeyedBy (record : FieldRecord) (fields : List (String × FieldTree)) :
    Prop where
  leaves : ∃ places, FieldTree.IsListing fields places ∧
    (record.sourceKeys.map some).Perm (places.map (·.1.getLast?))
  distinct : record.sourceKeys.Nodup ↔ FieldTree.HasDistinctLeaves fields

theorem FieldTree.names_leavesOfAll (fields : List (String × FieldTree)) :
    ((leavesOfAll fields).map ServiceField.name).map some =
      (placesOfAll fields).map (·.1.getLast?) := by
  rw [List.map_map]
  have h := lends_leavesOfAll fields
  generalize placesOfAll fields = places, leavesOfAll fields = leaves at h
  induction h with
  | nil => rfl
  | cons hl _ ih => rw [List.map_cons, List.map_cons, ih, hl.name, Function.comp_apply]

theorem FieldTree.nodup_names_leavesOfAll {fields : List (String × FieldTree)}
    (h : IsOrdered fields) :
    ((leavesOfAll fields).map ServiceField.name).Nodup ↔ HasDistinctLeaves fields := by
  have hplaces : (placesOfAll fields).Nodup :=
    (pairwise_placesOfAll h).imp fun hlt => by
      rintro rfl
      exact List.lt_irrefl _ hlt
  rw [← List.nodup_map_iff fun _ _ => Option.some.inj, names_leavesOfAll,
    List.nodup_map_iff_inj_on hplaces]
  constructor
  · intro hinj path leaf other later hr hl hr' hl' heq
    have hpair := hinj _ (mem_placesOfAll.2 ⟨hr, hl⟩) _ (mem_placesOfAll.2 ⟨hr', hl'⟩) heq
    exact congrArg Prod.fst hpair
  · rintro hdistinct ⟨path, leaf⟩ hm ⟨other, later⟩ hm' heq
    obtain ⟨hr, hl⟩ := mem_placesOfAll.1 hm
    obtain ⟨hr', hl'⟩ := mem_placesOfAll.1 hm'
    obtain rfl := hdistinct path leaf other later hr hl hr' hl' heq
    rw [h.unique hr hr']

theorem FieldRecord.isKeyedBy_of_perm {record : FieldRecord} {fields : List (String × FieldTree)}
    (h : FieldTree.IsOrdered fields)
    (hp : record.sourceKeys.Perm ((FieldTree.leavesOfAll fields).map ServiceField.name)) :
    record.IsKeyedBy fields where
  leaves := ⟨_, FieldTree.isListing_placesOfAll h, FieldTree.names_leavesOfAll fields ▸ hp.map some⟩
  distinct := hp.nodup_iff.trans (FieldTree.nodup_names_leavesOfAll h)

namespace GeneratedModel

/-- Attribute records never have two fields under one key. Parameter records do exactly where two
leaves of their service have one name. -/
structure HasKeysOf (model : GeneratedModel) (snapshot : Snapshot) : Prop where
  attributes : ∀ record, .attributeRecord record ∈ model.types → record.sourceKeys.Nodup
  parameters : ∀ record, .serviceParameters record ∈ model.types →
    ∃ entry ∈ snapshot.services, ∃ service ∈ entry.services,
      record.origin = entry.domain ++ "." ++ service.1 ∧ record.IsKeyedBy service.2.fields

theorem hasKeysOf_of_generate_eq_ok (bytes : ByteArray) (snapshot : Snapshot)
    (options : SchemaOptions) (model : GeneratedModel)
    (hbytes : Snapshot.ofBytes bytes = .ok snapshot)
    (h : generate (assemble snapshot.states options) snapshot.serviceCatalog = .ok model) :
    model.HasKeysOf snapshot := by
  constructor
  · intro record hr
    obtain ⟨services, -, hc⟩ := bind_eq_ok.1 h
    obtain ⟨-, -, rfl⟩ := check_eq_ok.1 hc
    obtain ⟨schema, hs, rfl⟩ := mem_attributeRecord.1 hr
    obtain ⟨domain, flag, hgroup⟩ := mem_assemble.1 hs
    obtain ⟨-, rfl⟩ := group?_eq_some.1 hgroup
    exact EntitySchema.nodup_sourceKeys_attributeRecord
  · intro record hr
    obtain ⟨_, hlisted, _, hservice, ho, hp⟩ := exists_service_of_serviceParameters h hr
    obtain ⟨entry, he, rfl⟩ := List.mem_map.1 hlisted
    obtain ⟨service, hs, rfl⟩ := List.mem_map.1 hservice
    have hordered := Snapshot.isOrdered_of_ofBytes_eq_ok hbytes entry he
    exact ⟨entry, he, service, hs, ho, FieldRecord.isKeyedBy_of_perm (hordered.fields service hs) hp⟩

def twinDocument : ByteArray :=
  ("\x7b\"services\": [\x7b\"domain\": \"d\", \"services\": \x7b\"s\": \x7b\"fields\": \x7b" ++
    "\"a\": \x7b\"fields\": \x7b\"x\": \x7b\x7d\x7d\x7d, " ++
    "\"b\": \x7b\"fields\": \x7b\"x\": \x7b\x7d\x7d\x7d\x7d\x7d\x7d\x7d]\x7d").toUTF8

def twinService : Service := ⟨"s", none, [⟨"x", none, false, none⟩, ⟨"x", none, false, none⟩]⟩

def twinRecord : FieldRecord :=
  ⟨"DSParameters", "d.s",
    [⟨"X_0", "x", .anything, false, none⟩, ⟨"X_1", "x", .anything, false, none⟩]⟩

def twinCatalog : List ServiceDomain := [⟨"d", [twinService]⟩]

theorem parameterRecord_twinService : twinService.parameterRecord "d" "S" = .ok twinRecord := by
  have hkeys : twinService.fields.map ServiceField.name = ["x", "x"] := rfl
  have hnames : Naming.canonicalNames ["x", "x"] Naming.fieldMark = [⟨"X_0", "x"⟩, ⟨"X_1", "x"⟩] := by
    rw [Naming.canonicalNames, Text.sortedByBoth_of_pairwise (by decide +kernel)]
    decide +kernel
  have hfields : twinService.describedFields =
      [("X_0", ⟨"x", none, false, none⟩), ("X_1", ⟨"x", none, false, none⟩)] := by
    rw [Service.describedFields, hkeys, hnames]
    decide +kernel
  exact Service.parameterRecord_eq_ok.2 ⟨twinRecord.fields, by rw [hfields]; rfl, by decide +kernel⟩

def twinGroups : List (ServiceGroup × List FieldRecord) :=
  [(⟨"DServices", "d", [⟨"S", "s", none, some "DSParameters"⟩]⟩, [twinRecord])]

theorem groups_twinCatalog : ServiceDomain.groups twinCatalog = .ok twinGroups := by
  have hservices : ServiceDomain.withServices twinCatalog = twinCatalog := by decide +kernel
  have hdescribed : ServiceDomain.described ⟨"d", [twinService]⟩ = [("S", twinService)] := by
    decide +kernel
  have hmethod := Service.method_eq_ok.2
    (.inr ⟨List.cons_ne_nil _ _, twinRecord, parameterRecord_twinService, rfl, rfl⟩)
  rw [ServiceDomain.groups, hservices, mapM_eq_ok]
  refine .cons (ServiceDomain.group_eq_ok.2
    ⟨[(⟨"S", "s", none, some "DSParameters"⟩, some twinRecord)], ?_, by decide +kernel, rfl⟩) .nil
  rw [hdescribed]
  exact mapM_eq_ok.2 (.cons hmethod .nil)

theorem generate_twinCatalog : generate [] twinCatalog = .ok ⟨definitions [] twinGroups⟩ :=
  bind_eq_ok.2 ⟨_, groups_twinCatalog, check_eq_ok.2 ⟨by decide +kernel, by decide +kernel, rfl⟩⟩

theorem exists_snapshot_twinDocument : ∃ snapshot, Snapshot.ofBytes twinDocument = .ok snapshot ∧
    snapshot.states = [] ∧ snapshot.serviceCatalog = twinCatalog := by
  have hcatalog : (Snapshot.ofBytes twinDocument).toOption.map
      (fun snapshot => (snapshot.states.isEmpty, snapshot.serviceCatalog)) =
        some (true, twinCatalog) := by decide +kernel
  obtain ⟨snapshot, hs, heq⟩ := map_toOption_eq_some.1 hcatalog
  obtain ⟨hstates, hlisted⟩ := Prod.mk.inj heq
  exact ⟨snapshot, hs, List.isEmpty_iff.1 hstates, hlisted⟩

theorem exists_generated_twinDocument : ∃ snapshot model,
    Snapshot.ofBytes twinDocument = .ok snapshot ∧
      generate (assemble snapshot.states ⟨[]⟩) snapshot.serviceCatalog = .ok model ∧
      .serviceParameters twinRecord ∈ model.types := by
  obtain ⟨snapshot, hs, hstates, hcatalog⟩ := exists_snapshot_twinDocument
  refine ⟨snapshot, ⟨definitions [] twinGroups⟩, hs, ?_, ?_⟩
  · rw [hstates, hcatalog]
    exact generate_twinCatalog
  · exact mem_serviceParameters.2 (by decide)

/-- A model is generated whose parameter record would write one key twice. -/
theorem repeats_key_twinDocument : ∃ snapshot model record,
    Snapshot.ofBytes twinDocument = .ok snapshot ∧
      generate (assemble snapshot.states ⟨[]⟩) snapshot.serviceCatalog = .ok model ∧
      .serviceParameters record ∈ model.types ∧ ¬ record.sourceKeys.Nodup := by
  obtain ⟨snapshot, model, hs, hm, hr⟩ := exists_generated_twinDocument
  exact ⟨snapshot, model, twinRecord, hs, hm, hr, by decide⟩

theorem hasKeysOf_twinDocument : ∃ snapshot model,
    Snapshot.ofBytes twinDocument = .ok snapshot ∧
      generate (assemble snapshot.states ⟨[]⟩) snapshot.serviceCatalog = .ok model ∧
      model.HasKeysOf snapshot := by
  obtain ⟨snapshot, model, hs, hm, -⟩ := exists_generated_twinDocument
  exact ⟨snapshot, model, hs, hm, hasKeysOf_of_generate_eq_ok _ _ _ _ hs hm⟩

end GeneratedModel

end HomeHub
