import HomeHub.Proofs.NameOrder
import HomeHub.Proofs.Success
import Mathlib.Logic.Relation

/-!
# The order of a catalog

Where entries, services and fields are told apart by their names, the groups of a catalog are those
of the same catalog in order of names, so no order of the input is seen in them.
-/

namespace HomeHub

theorem map_perm_of_comp {related : α → α → Prop} {f : α → β} {items others : List α}
    (h : Relation.Comp List.Perm (List.Forall₂ related) items others)
    (hf : ∀ item ∈ items, ∀ other, related item other → f item = f other) :
    (items.map f).Perm (others.map f) := by
  obtain ⟨between, hperm, hrelated⟩ := h
  refine (hperm.map f).trans (.of_eq ?_)
  replace hf : ∀ item ∈ between, ∀ other, related item other → f item = f other :=
    fun item hm => hf item (hperm.mem_iff.2 hm)
  clear hperm
  induction hrelated with
  | nil => rfl
  | cons hr _ ih =>
    obtain ⟨hfirst, hrest⟩ := List.forall_mem_cons.1 hf
    rw [List.map_cons, List.map_cons, hfirst _ hr, ih hrest]

theorem exists_of_comp {related : α → α → Prop} {items others : List α}
    (h : Relation.Comp List.Perm (List.Forall₂ related) items others) {other : α}
    (hm : other ∈ others) : ∃ item ∈ items, related item other := by
  obtain ⟨between, hperm, hrelated⟩ := h
  obtain ⟨item, hi, hr⟩ := exists_of_forall₂ hrelated hm
  exact ⟨item, hperm.mem_iff.2 hi, hr⟩

-- ---------------------------------------------------------------------------
-- Services
-- ---------------------------------------------------------------------------

namespace Service

def HasDistinctFields (service : Service) : Prop :=
  (service.fields.map ServiceField.name).Nodup

structure Reorders (service other : Service) : Prop where
  name : service.name = other.name
  description : service.description = other.description
  fields : service.fields.Perm other.fields

def arranged (service : Service) : Service :=
  { service with fields := Text.sortedBy ServiceField.name service.fields }

theorem Reorders.arranged_eq {service other : Service} (h : service.Reorders other)
    (hd : service.HasDistinctFields) : service.arranged = other.arranged := by
  have hfields := Text.sortedBy_eq_of_perm h.fields fun a ha b hb =>
    List.inj_on_of_nodup_map hd ha hb
  simp only [arranged, h.name, h.description, hfields]

theorem describedFields_arranged {service : Service} (h : service.HasDistinctFields) :
    service.arranged.describedFields = service.describedFields := by
  have hperm : service.fields.Perm service.arranged.fields := (Text.sortedBy_perm _ _).symm
  simp only [describedFields, ← Naming.canonicalNames_eq_of_perm (hperm.map _) h,
    ← lastWhere?_eq_of_perm hperm h]

theorem method_arranged {service : Service} (h : service.HasDistinctFields)
    (domain identifier : String) :
    service.arranged.method domain identifier = service.method domain identifier := by
  have hempty : service.arranged.fields.isEmpty = service.fields.isEmpty :=
    (Text.sortedBy_perm ServiceField.name service.fields).isEmpty_eq
  have hrecord : service.arranged.parameterRecord domain identifier =
      service.parameterRecord domain identifier := by
    show service.arranged.describedFields.mapM _ >>= _ = service.describedFields.mapM _ >>= _
    rw [describedFields_arranged h]
    rfl
  simp only [method, hempty, hrecord]
  rfl

end Service

-- ---------------------------------------------------------------------------
-- Entries and catalogs
-- ---------------------------------------------------------------------------

namespace ServiceDomain

structure HasDistinctNames (entry : ServiceDomain) : Prop where
  services : (entry.services.map Service.name).Nodup
  fields : ∀ service ∈ entry.services, service.HasDistinctFields

structure Reorders (entry other : ServiceDomain) : Prop where
  domain : entry.domain = other.domain
  services : Relation.Comp List.Perm (List.Forall₂ Service.Reorders) entry.services other.services

def arranged (entry : ServiceDomain) : ServiceDomain :=
  { entry with services := Text.sortedBy Service.name (entry.services.map Service.arranged) }

theorem Reorders.arranged_eq {entry other : ServiceDomain} (h : entry.Reorders other)
    (hd : entry.HasDistinctNames) : entry.arranged = other.arranged := by
  have hperm := map_perm_of_comp h.services (f := Service.arranged)
    fun service hs _ hr => hr.arranged_eq (hd.fields service hs)
  have hnames : ((entry.services.map Service.arranged).map Service.name).Nodup := by
    rw [List.map_map]
    exact hd.services
  have hservices := Text.sortedBy_eq_of_perm hperm fun a ha b hb =>
    List.inj_on_of_nodup_map hnames ha hb
  simp only [arranged, h.domain, hservices]

theorem Reorders.hasDistinctNames {entry other : ServiceDomain} (h : entry.Reorders other)
    (hd : entry.HasDistinctNames) : other.HasDistinctNames := by
  constructor
  · have hperm := map_perm_of_comp h.services (f := Service.name) fun _ _ _ hr => hr.name
    exact hperm.nodup_iff.1 hd.services
  · intro service hs
    obtain ⟨found, hf, hr⟩ := exists_of_comp h.services hs
    exact (hr.fields.map ServiceField.name).nodup_iff.1 (hd.fields found hf)

theorem services_arranged_perm (entry : ServiceDomain) :
    entry.arranged.services.Perm (entry.services.map Service.arranged) :=
  Text.sortedBy_perm _ _

theorem described_arranged {entry : ServiceDomain} (h : entry.HasDistinctNames) :
    entry.arranged.described = entry.described.map fun pair => (pair.1, pair.2.arranged) := by
  have hperm := entry.services_arranged_perm
  have hnames : (entry.services.map Service.arranged).map Service.name =
      entry.services.map Service.name := List.map_map
  have hsorted (services : List Service) :
      ((Text.sortedBy Service.name services).map Service.name).Perm (services.map Service.name) :=
    (Text.sortedBy_perm _ _).map _
  have hkeys : ((Text.sortedBy Service.name entry.services).map Service.name).Perm
      ((Text.sortedBy Service.name entry.arranged.services).map Service.name) :=
    (hsorted _).trans (.trans (hnames ▸ (hperm.map Service.name).symm) (hsorted _).symm)
  have hlookup (key : String) : lastWhere? (·.name == key) entry.arranged.services =
      (lastWhere? (·.name == key) entry.services).map Service.arranged := by
    rw [← lastWhere?_eq_of_perm hperm.symm (hnames ▸ h.services)]
    exact lastWhere?_map Service.arranged (·.name == key) entry.services
  simp only [described, hlookup, ← Naming.canonicalNames_eq_of_perm hkeys
    ((hsorted _).nodup_iff.2 h.services), List.map_filterMap, Option.map_map, Function.comp_def]

theorem group_arranged {entry : ServiceDomain} (h : entry.HasDistinctNames) :
    entry.arranged.group = entry.group := by
  show entry.arranged.described.mapM _ >>= _ = entry.described.mapM _ >>= _
  rw [described_arranged h, List.mapM_map]
  refine congrArg (· >>= _) (mapM_congr fun pair hp => ?_)
  exact Service.method_arranged (h.fields _ (mem_services_of_described hp)) _ _

structure IsDistinct (catalog : List ServiceDomain) : Prop where
  domains : ((catalog.filter fun entry => !entry.services.isEmpty).map ServiceDomain.domain).Nodup
  entries : ∀ entry ∈ catalog, entry.HasDistinctNames

theorem filter_map_arranged (catalog : List ServiceDomain) :
    (catalog.map arranged).filter (fun entry => !entry.services.isEmpty) =
      (catalog.filter fun entry => !entry.services.isEmpty).map arranged := by
  rw [List.filter_map]
  refine congrArg _ (List.filter_congr fun entry _ => ?_)
  rw [Function.comp_apply, entry.services_arranged_perm.isEmpty_eq, List.isEmpty_map]

theorem withServices_map_arranged (catalog : List ServiceDomain) :
    withServices (catalog.map arranged) = (withServices catalog).map arranged := by
  rw [withServices, filter_map_arranged]
  exact (Text.map_sortedBy arranged ServiceDomain.domain _).symm

theorem groups_map_arranged {catalog : List ServiceDomain}
    (h : ∀ entry ∈ catalog, entry.HasDistinctNames) :
    groups (catalog.map arranged) = groups catalog := by
  rw [groups, groups, withServices_map_arranged, List.mapM_map]
  exact mapM_congr fun entry he => group_arranged (h entry (mem_withServices.1 he).1)

def ReordersCatalog : List ServiceDomain → List ServiceDomain → Prop :=
  Relation.Comp List.Perm (List.Forall₂ Reorders)

theorem groups_eq_of_reorders {catalog other : List ServiceDomain}
    (h : ReordersCatalog catalog other) (hd : IsDistinct catalog) :
    groups catalog = groups other := by
  have hother : ∀ entry ∈ other, entry.HasDistinctNames := fun entry he => by
    obtain ⟨found, hf, hr⟩ := exists_of_comp h he
    exact hr.hasDistinctNames (hd.entries found hf)
  have hperm := map_perm_of_comp h (f := arranged) fun entry he _ hr =>
    hr.arranged_eq (hd.entries entry he)
  have hdomains : (((catalog.map arranged).filter fun entry => !entry.services.isEmpty).map
      ServiceDomain.domain).Nodup := by
    rw [filter_map_arranged, List.map_map]
    exact hd.domains
  have hsorted : withServices (catalog.map arranged) = withServices (other.map arranged) :=
    Text.sortedBy_eq_of_perm (hperm.filter _) fun a ha b hb =>
      List.inj_on_of_nodup_map hdomains ha hb
  calc groups catalog
    _ = groups (catalog.map arranged) := (groups_map_arranged hd.entries).symm
    _ = groups (other.map arranged) := congrArg (·.mapM group) hsorted
    _ = groups other := groups_map_arranged hother

end ServiceDomain

end HomeHub
