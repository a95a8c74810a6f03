import HomeHub.Proofs.Check
import HomeHub.Proofs.Decoded
import HomeHub.Proofs.FieldTrees

/-!
# The catalog of a document

A document that was accepted has the services of a domain under ascending names, and so the fields
at every level of each of them. Its catalog lists all that is there, and no kind of selector keeps
a model from being generated.
-/

namespace HomeHub

-- ---------------------------------------------------------------------------
-- Accepted documents
-- ---------------------------------------------------------------------------

structure FieldTree.IsRead (depth : Nat) (tree : FieldTree) : Prop where
  ascending : Table.IsAscending tree.fields
  inner : ∀ entry ∈ tree.fields, (decoder depth).Reads entry.2
  kinds : ∀ kinds, tree.selector? = some kinds → kinds.Pairwise (· < ·)

theorem FieldTree.isRead_of_reads {depth : Nat} {tree : FieldTree} (h : (decoder depth).Reads tree) :
    ∃ below, depth = below + 1 ∧ IsRead below tree := by
  cases depth with
  | zero =>
    obtain ⟨_, _, h⟩ := h
    cases h
  | succ below =>
    obtain ⟨⟨required, description, selector, fields, ⟨⟩⟩, ⟨-, -, hselector, hfields, -⟩, rfl⟩ :=
      Json.Decoder.reads_of_record h
    have hkinds : ∀ kinds, selector = some kinds → kinds.Pairwise (· < ·) := by
      rintro kinds rfl
      rcases hselector with hselector | hselector
      · obtain ⟨table, ht, rfl⟩ := Json.Decoder.reads_of_map (Json.Decoder.reads_of_option hselector)
        exact List.pairwise_map.2 (Json.Decoder.reads_of_table ht).1
      · cases hselector
    rcases hfields with hfields | rfl
    · obtain ⟨ascending, inner⟩ := Json.Decoder.reads_of_table hfields
      exact ⟨below, rfl, ascending, inner, hkinds⟩
    · exact ⟨below, rfl, .nil, nofun, hkinds⟩

theorem FieldTree.isOrdered_of_reads {depth : Nat} {tree : FieldTree}
    (h : (FieldTree.decoder depth).Reads tree) : IsOrdered tree.fields := by
  induction depth generalizing tree with
  | zero =>
    obtain ⟨below, hd, -⟩ := isRead_of_reads h
    cases hd
  | succ depth ih =>
    obtain ⟨below, hd, hread⟩ := isRead_of_reads h
    obtain rfl := Nat.succ.inj hd
    exact .mk hread.ascending fun entry hm => ih (hread.inner entry hm)

theorem FieldTree.exists_reads_of_reaches {depth : Nat} {fields : List (String × FieldTree)}
    {path : List String} {tree : FieldTree} (h : ∀ entry ∈ fields, (decoder depth).Reads entry.2)
    (hr : Reaches fields path tree) : ∃ below, (decoder below).Reads tree := by
  induction hr generalizing depth with
  | entry hm => exact ⟨depth, h _ hm⟩
  | inside hm _ _ ih =>
    obtain ⟨below, -, hread⟩ := isRead_of_reads (h _ hm)
    exact ih hread.inner

theorem ServiceEntry.isRead_of_reads {entry : ServiceEntry} (h : decoder.Reads entry) :
    Table.IsAscending entry.fields ∧
      ∀ field ∈ entry.fields, (FieldTree.decoder Json.Decoder.textLevels).Reads field.2 := by
  obtain ⟨⟨description, fields, ⟨⟩⟩, ⟨-, hfields, -⟩, rfl⟩ := Json.Decoder.reads_of_record h
  rcases hfields with hfields | rfl
  · exact Json.Decoder.reads_of_table hfields
  · exact ⟨.nil, nofun⟩

theorem ServiceEntry.isOrdered_of_reads {entry : ServiceEntry} (h : decoder.Reads entry) :
    FieldTree.IsOrdered entry.fields :=
  .mk (isRead_of_reads h).1 fun field hm => FieldTree.isOrdered_of_reads ((isRead_of_reads h).2 field hm)

theorem DomainEntry.isRead_of_reads {entry : DomainEntry} (h : decoder.Reads entry) :
    Table.IsAscending entry.services ∧
      ∀ service ∈ entry.services, ServiceEntry.decoder.Reads service.2 := by
  obtain ⟨⟨domain, services, ⟨⟩⟩, ⟨-, hservices, -⟩, rfl⟩ := Json.Decoder.reads_of_record h
  rcases hservices with hservices | rfl
  · exact Json.Decoder.reads_of_table hservices
  · exact ⟨.nil, nofun⟩

structure DomainEntry.IsOrdered (entry : DomainEntry) : Prop where
  services : Table.IsAscending entry.services
  fields : ∀ service ∈ entry.services, FieldTree.IsOrdered service.2.fields

theorem DomainEntry.isOrdered_of_reads {entry : DomainEntry} (h : decoder.Reads entry) :
    entry.IsOrdered where
  services := (isRead_of_reads h).1
  fields service hm := ServiceEntry.isOrdered_of_reads ((isRead_of_reads h).2 service hm)

theorem Snapshot.reads_of_ofBytes_eq_ok {bytes : ByteArray} {snapshot : Snapshot}
    (h : ofBytes bytes = .ok snapshot) : ∀ entry ∈ snapshot.services, DomainEntry.decoder.Reads entry := by
  obtain ⟨⟨states, services, ⟨⟩⟩, ⟨-, hservices, -⟩, rfl⟩ :=
    Json.Decoder.reads_of_record (Json.Decoder.reads_of_run h)
  rcases hservices with hservices | rfl
  · exact Json.Decoder.reads_of_list hservices
  · exact nofun

theorem Snapshot.isOrdered_of_ofBytes_eq_ok {bytes : ByteArray} {snapshot : Snapshot}
    (h : ofBytes bytes = .ok snapshot) : ∀ entry ∈ snapshot.services, entry.IsOrdered :=
  fun entry hm => DomainEntry.isOrdered_of_reads (reads_of_ofBytes_eq_ok h entry hm)

-- ---------------------------------------------------------------------------
-- What the catalog lists
-- ---------------------------------------------------------------------------

structure ServiceEntry.IsListedAs (entry : String × ServiceEntry) (service : Service) : Prop where
  name : service.name = entry.1
  description : service.description = entry.2.description
  fields : ∃ places, FieldTree.IsListing entry.2.fields places ∧
    List.Forall₂ FieldTree.Lends places service.fields

structure DomainEntry.IsListedAs (entry : DomainEntry) (listed : ServiceDomain) : Prop where
  domain : listed.domain = entry.domain
  services : List.Forall₂ ServiceEntry.IsListedAs entry.services listed.services
  ascending : listed.services.Pairwise fun service later => service.name < later.name

theorem ServiceEntry.isListedAs_service {entry : String × ServiceEntry}
    (h : FieldTree.IsOrdered entry.2.fields) : IsListedAs entry (entry.2.service entry.1) :=
  ⟨rfl, rfl, _, FieldTree.isListing_placesOfAll h, FieldTree.lends_leavesOfAll _⟩

theorem DomainEntry.isListedAs_serviceDomain {entry : DomainEntry} (h : entry.IsOrdered) :
    entry.IsListedAs entry.serviceDomain where
  domain := rfl
  services := List.forall₂_map_right_iff.2 <| List.forall₂_same.2 fun service hm =>
    ServiceEntry.isListedAs_service (h.fields service hm)
  ascending := List.pairwise_map.2 h.services

theorem Snapshot.isKnown_of_mem_serviceCatalog (snapshot : Snapshot) :
    ∀ entry ∈ snapshot.serviceCatalog, ∀ service ∈ entry.services, ∀ field ∈ service.fields,
      field.IsKnown := by
  intro entry he service hs field hf
  obtain ⟨listed, -, rfl⟩ := List.mem_map.1 he
  obtain ⟨⟨name, described⟩, -, rfl⟩ := List.mem_map.1 hs
  obtain ⟨place, -, hl⟩ :=
    exists_of_forall₂ (FieldTree.lends_leavesOfAll described.fields) hf
  exact hl.known

/-- The catalog lists what a document has, and declares no type that is unknown. -/
structure Snapshot.IsCataloged (snapshot : Snapshot) : Prop where
  /-- One entry for each of the document, in the order of the document. -/
  entries : List.Forall₂ DomainEntry.IsListedAs snapshot.services snapshot.serviceCatalog
  known : ∀ options domain service field typeName,
    GeneratedModel.generate (assemble snapshot.states options) snapshot.serviceCatalog ≠
      .error (.unknownFieldType domain service field typeName)

theorem Snapshot.isCataloged_of_ofBytes_eq_ok (bytes : ByteArray) (snapshot : Snapshot)
    (h : ofBytes bytes = .ok snapshot) : snapshot.IsCataloged where
  entries := List.forall₂_map_right_iff.2 <| List.forall₂_same.2 fun entry hm =>
    DomainEntry.isListedAs_serviceDomain (isOrdered_of_ofBytes_eq_ok h entry hm)
  known options domain service field typeName := by
    obtain ⟨services, hs⟩ := ServiceDomain.exists_groups_ok snapshot.isKnown_of_mem_serviceCatalog
    rw [GeneratedModel.generate, hs]
    exact GeneratedModel.check_ne_unknownFieldType _ _ _ _ _

def floorDocument : ByteArray :=
  ("\x7b\"services\": [\x7b\"domain\": \"area\", \"services\": \x7b\"move\": \x7b\"fields\": \x7b" ++
    "\"more\": \x7b\"fields\": \x7b\"floor_id\": \x7b\"selector\": \x7b\"floor\": \x7b\x7d\x7d\x7d\x7d\x7d" ++
    "\x7d\x7d\x7d\x7d]\x7d").toUTF8

theorem Snapshot.isCataloged_floorDocument :
    ∃ snapshot, ofBytes floorDocument = .ok snapshot ∧ snapshot.IsCataloged ∧
      snapshot.serviceCatalog =
        [⟨"area", [⟨"move", none, [⟨"floor_id", some "object", false, none⟩]⟩]⟩] := by
  have hcatalog : (ofBytes floorDocument).toOption.map Snapshot.serviceCatalog =
      some [⟨"area", [⟨"move", none, [⟨"floor_id", some "object", false, none⟩]⟩]⟩] := by
    decide +kernel
  obtain ⟨snapshot, h, hlisted⟩ := map_toOption_eq_some.1 hcatalog
  exact ⟨snapshot, h, isCataloged_of_ofBytes_eq_ok _ _ h, hlisted⟩

end HomeHub
