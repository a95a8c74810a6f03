import HomeHub.Proofs.DocumentCatalog

/-!
# Kinds of selectors as type names

A scalar type is found in two steps: the kind of a selector gives a declared type, and that a scalar
type. Where the kind itself may be declared, both ways lead to one scalar type, but for three names
of scalar types that are unknown to the first step. These are taken for objects.
-/

namespace HomeHub

namespace FieldTree

/-- The names of scalar types that are unknown where a selector is read. -/
def droppedKinds : List String := ["integer", "float", "bool"]

theorem typeNamed?_declaredType {kind : String} {type : AttributeType}
    (h : ServiceField.typeNamed? kind = some type) :
    ServiceField.typeNamed? (declaredType kind) =
      some (if kind ∈ droppedKinds then .anything else type) := by
  obtain ⟨entry, hfound, rfl⟩ := Option.map_eq_some_iff.1 h
  have hknown := List.find?_some hfound
  have hall : ∀ entry ∈ ServiceField.vocabulary, ∀ kind ∈ entry.2,
      ServiceField.typeNamed? (declaredType kind) =
        some (if kind ∈ droppedKinds then .anything else entry.1) := by decide +kernel
  exact hall entry (List.mem_of_find?_eq_some hfound) kind (List.contains_iff_mem.1 hknown)

theorem typeNamed?_ne_anything {kind : String} (h : kind ∈ droppedKinds) :
    ServiceField.typeNamed? kind ≠ some .anything := by
  have hall : ∀ kind ∈ droppedKinds, ServiceField.typeNamed? kind ≠ some .anything := by
    decide +kernel
  exact hall kind h

end FieldTree

theorem ServiceField.resolvedType_eq_ok {field : ServiceField} {name : String}
    (h : field.typeName = some name) {domain service : String} {type : AttributeType} :
    field.resolvedType domain service = .ok type ↔ typeNamed? name = some type := by
  simp only [resolvedType, h]
  cases typeNamed? name <;> simp

-- ---------------------------------------------------------------------------
-- The fields of a document
-- ---------------------------------------------------------------------------

structure FieldTree.IsTypedAs (place : List String × FieldTree) (field : ServiceField) : Prop where
  name : place.1.getLast? = some field.name
  /-- The kind is the least of the keys of the selector. -/
  least : ∀ kinds, place.2.selector? = some kinds → kinds.Pairwise (· < ·)
  /-- Where a catalog could declare the kind itself, the type is the one it would get there, unless
  the name is a dropped one. -/
  agrees : ∀ kind type domain service, place.2.kind? = some kind →
    { field with typeName := some kind }.resolvedType domain service = .ok type →
      (field.resolvedType domain service = .ok type ↔ kind ∉ droppedKinds) ∧
      (kind ∈ droppedKinds → field.resolvedType domain service = .ok .anything)

theorem FieldTree.isTypedAs_of_fieldOf?_eq_some {place : List String × FieldTree}
    {field : ServiceField} (h : fieldOf? place = some field)
    (hk : ∀ kinds, place.2.selector? = some kinds → kinds.Pairwise (· < ·)) :
    IsTypedAs place field := by
  obtain ⟨name, hname, rfl⟩ := Option.map_eq_some_iff.1 h
  refine ⟨hname, hk, fun kind type domain service hkind hdirect => ?_⟩
  have hknown : ServiceField.typeNamed? kind = some type :=
    (ServiceField.resolvedType_eq_ok rfl).1 hdirect
  have hdeclared := typeNamed?_declaredType hknown
  have hlisted : place.2.kind?.map declaredType = some (declaredType kind) := by rw [hkind]; rfl
  rw [ServiceField.resolvedType_eq_ok hlisted, ServiceField.resolvedType_eq_ok hlisted, hdeclared]
  by_cases hd : kind ∈ droppedKinds
  · have hne : type ≠ .anything := fun heq => typeNamed?_ne_anything hd (heq ▸ hknown)
    simp [hd, hne.symm]
  · simp [hd]

def DomainEntry.IsTypedAs (entry : DomainEntry) (listed : ServiceDomain) : Prop :=
  List.Forall₂ (fun (service : String × ServiceEntry) (listed : Service) =>
    ∃ places, FieldTree.IsListing service.2.fields places ∧
      List.Forall₂ FieldTree.IsTypedAs places listed.fields) entry.services listed.services

namespace Snapshot

theorem isTypedAs_of_ofBytes_eq_ok (bytes : ByteArray) (snapshot : Snapshot)
    (h : ofBytes bytes = .ok snapshot) :
    List.Forall₂ DomainEntry.IsTypedAs snapshot.services snapshot.serviceCatalog := by
  refine List.forall₂_map_right_iff.2 <| List.forall₂_same.2 fun entry he => ?_
  refine List.forall₂_map_right_iff.2 <| List.forall₂_same.2 fun service hs => ?_
  have hread := (DomainEntry.isRead_of_reads (reads_of_ofBytes_eq_ok h entry he)).2 service hs
  refine ⟨_, FieldTree.isListing_placesOfAll (ServiceEntry.isOrdered_of_reads hread), ?_⟩
  -- every leaf was read, so the keys of its selector ascend
  have hleaf : ∀ place ∈ FieldTree.placesOfAll service.2.fields, ∀ kinds,
      place.2.selector? = some kinds → kinds.Pairwise (· < ·) := by
    intro place hp
    have hreaches := (FieldTree.mem_placesOfAll.1 hp).1
    obtain ⟨depth, hr⟩ :=
      FieldTree.exists_reads_of_reaches (ServiceEntry.isRead_of_reads hread).2 hreaches
    obtain ⟨below, -, htree⟩ := FieldTree.isRead_of_reads hr
    exact htree.kinds
  have hfields := FieldTree.fieldOf?_leavesOfAll service.2.fields
  refine ((List.forall₂_and_left _ _).2 ⟨hleaf, hfields⟩).imp ?_
  rintro place field ⟨hk, hf⟩
  exact FieldTree.isTypedAs_of_fieldOf?_eq_some hf hk

def leafKinds (snapshot : Snapshot) : List (List String × Option String) :=
  snapshot.services.flatMap fun entry => entry.services.flatMap fun (_, service) =>
    (FieldTree.placesOfAll service.fields).map fun (path, leaf) => (path, leaf.kind?)

theorem exists_leaf_of_mem_leafKinds {snapshot : Snapshot} {path : List String} {kind? : Option String}
    (h : (path, kind?) ∈ snapshot.leafKinds) :
    ∃ entry ∈ snapshot.services, ∃ service ∈ entry.services, ∃ leaf,
      FieldTree.Reaches service.2.fields path leaf ∧ ¬ leaf.IsSection ∧ leaf.kind? = kind? := by
  obtain ⟨entry, he, h⟩ := List.mem_flatMap.1 h
  obtain ⟨service, hs, h⟩ := List.mem_flatMap.1 h
  obtain ⟨⟨_, leaf⟩, hp, heq⟩ := List.mem_map.1 h
  obtain ⟨rfl, rfl⟩ := Prod.mk.inj heq
  obtain ⟨hr, hl⟩ := FieldTree.mem_placesOfAll.1 hp
  exact ⟨entry, he, service, hs, leaf, hr, hl, rfl⟩

def integerDocument : ByteArray :=
  ("\x7b\"services\": [\x7b\"domain\": \"d\", \"services\": \x7b\"s\": \x7b\"fields\": \x7b" ++
    "\"more\": \x7b\"fields\": \x7b\"f\": \x7b\"selector\": \x7b\"integer\": \x7b\x7d\x7d\x7d\x7d\x7d" ++
    "\x7d\x7d\x7d\x7d]\x7d").toUTF8

theorem exists_snapshot_integerDocument : ∃ snapshot, ofBytes integerDocument = .ok snapshot ∧
    snapshot.leafKinds = [(["more", "f"], some "integer")] ∧
    snapshot.serviceCatalog =
      [⟨"d", [⟨"s", none, [⟨"f", some "object", false, none⟩]⟩]⟩] := by
  have hread : (ofBytes integerDocument).toOption.map
      (fun snapshot => (snapshot.leafKinds, snapshot.serviceCatalog)) =
        some ([(["more", "f"], some "integer")],
          [⟨"d", [⟨"s", none, [⟨"f", some "object", false, none⟩]⟩]⟩]) := by decide +kernel
  obtain ⟨snapshot, h, heq⟩ := map_toOption_eq_some.1 hread
  obtain ⟨hkinds, hcatalog⟩ := Prod.mk.inj heq
  exact ⟨snapshot, h, hkinds, hcatalog⟩

theorem drops_kind_integerDocument : ∃ snapshot, ofBytes integerDocument = .ok snapshot ∧
    ∃ entry ∈ snapshot.services, ∃ service ∈ entry.services, ∃ leaf field,
      FieldTree.Reaches service.2.fields ["more", "f"] leaf ∧ leaf.kind? = some "integer" ∧
      snapshot.serviceCatalog = [⟨"d", [⟨"s", none, [field]⟩]⟩] ∧ field.name = "f" ∧
      { field with typeName := some "integer" }.resolvedType "d" "s" = .ok .number ∧
      field.resolvedType "d" "s" = .ok .anything := by
  obtain ⟨snapshot, h, hkinds, hcatalog⟩ := exists_snapshot_integerDocument
  obtain ⟨entry, he, service, hs, leaf, hr, -, hk⟩ :=
    exists_leaf_of_mem_leafKinds (hkinds ▸ List.mem_singleton_self _)
  exact ⟨snapshot, h, entry, he, service, hs, leaf, ⟨"f", some "object", false, none⟩, hr, hk,
    hcatalog, rfl, by decide +kernel, by decide +kernel⟩

theorem isTypedAs_integerDocument : ∃ snapshot, ofBytes integerDocument = .ok snapshot ∧
    snapshot.leafKinds = [(["more", "f"], some "integer")] ∧
    List.Forall₂ DomainEntry.IsTypedAs snapshot.services snapshot.serviceCatalog := by
  obtain ⟨snapshot, h, hkinds, -⟩ := exists_snapshot_integerDocument
  exact ⟨snapshot, h, hkinds, isTypedAs_of_ofBytes_eq_ok _ _ h⟩

end Snapshot

end HomeHub
