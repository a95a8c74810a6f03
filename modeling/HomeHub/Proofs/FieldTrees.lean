import HomeHub.Proofs.ServiceGroups
import HomeHub.Snapshot
import Mathlib.Data.List.Nodup

/-!
# Trees of fields

The names of sections lead from the fields of a service down to its leaves. Putting a tree flat
gives one field for each leaf. Where names ascend at every level, the leaves stand in the order of
the paths that lead to them, and no path to a section is among these.
-/

namespace HomeHub

theorem Table.IsAscending.nodup_keys {table : Table α} (h : table.IsAscending) :
    (table.map (·.1)).Nodup :=
  List.pairwise_map.2 (h.imp fun hlt => String.ne_of_lt hlt)

theorem Table.IsAscending.eq_of_mem {table : Table α} (h : table.IsAscending) {key : String}
    {value other : α} (hv : (key, value) ∈ table) (ho : (key, other) ∈ table) : value = other :=
  congrArg Prod.snd (List.inj_on_of_nodup_map h.nodup_keys hv ho rfl)

namespace FieldTree

def required : FieldTree → Bool
  | .mk required _ _ _ => required

def description : FieldTree → Option String
  | .mk _ description _ _ => description

def selector? : FieldTree → Option (List String)
  | .mk _ _ selector _ => selector

def fields : FieldTree → List (String × FieldTree)
  | .mk _ _ _ fields => fields

def IsSection (tree : FieldTree) : Prop := tree.selector? = none ∧ tree.fields ≠ []

inductive Reaches : List (String × FieldTree) → List String → FieldTree → Prop
  | entry {fields : List (String × FieldTree)} {name : String} {tree : FieldTree}
      (hm : (name, tree) ∈ fields) : Reaches fields [name] tree
  | inside {fields : List (String × FieldTree)} {name : String} {tree below : FieldTree}
      {path : List String} (hm : (name, tree) ∈ fields) (hs : tree.IsSection)
      (hr : Reaches tree.fields path below) : Reaches fields (name :: path) below

inductive IsOrdered : List (String × FieldTree) → Prop
  | mk {fields : List (String × FieldTree)} (ascending : Table.IsAscending fields)
      (inner : ∀ entry ∈ fields, IsOrdered entry.2.fields) : IsOrdered fields

/-- Each leaf below the fields once, behind the path to it. The order is depth first with names that
ascend at each level, which is the lexicographic order of the paths. -/
structure IsListing (fields : List (String × FieldTree)) (places : List (List String × FieldTree)) :
    Prop where
  leaves : ∀ path leaf, (path, leaf) ∈ places ↔ Reaches fields path leaf ∧ ¬ leaf.IsSection
  ascending : places.Pairwise fun place later => place.1 < later.1
  sections : ∀ path tree, Reaches fields path tree → tree.IsSection →
    ∀ place ∈ places, place.1 ≠ path

/-- The kind of a selector, the first of its keys. -/
def kind? (tree : FieldTree) : Option String := tree.selector?.bind List.head?

/-- The field that a leaf is put down as, under the last name on the path to it. -/
def fieldOf? (place : List String × FieldTree) : Option ServiceField :=
  place.1.getLast?.map fun name =>
    ⟨name, place.2.kind?.map declaredType, place.2.required, place.2.description⟩

/-- The field that a leaf at the end of a path is described by. -/
structure Lends (place : List String × FieldTree) (field : ServiceField) : Prop where
  name : place.1.getLast? = some field.name
  required : field.required = place.2.required
  description : field.description = place.2.description
  /-- Only where the selector names no kind there is no type. -/
  typed : field.typeName = none ↔ place.2.selector?.bind List.head? = none
  known : field.IsKnown

-- ---------------------------------------------------------------------------
-- Reaching entries
-- ---------------------------------------------------------------------------

theorem Reaches.ne_nil {fields : List (String × FieldTree)} {path : List String} {tree : FieldTree}
    (h : Reaches fields path tree) : path ≠ [] := by
  cases h <;> exact List.cons_ne_nil _ _

theorem IsOrdered.unique {fields : List (String × FieldTree)} {path : List String}
    {tree other : FieldTree} (ho : IsOrdered fields) (h : Reaches fields path tree)
    (h' : Reaches fields path other) : tree = other := by
  induction h with
  | entry hm =>
    obtain ⟨ascending, -⟩ := ho
    cases h' with
    | entry hm' => exact ascending.eq_of_mem hm hm'
    | inside _ _ hr => exact absurd rfl hr.ne_nil
  | inside hm _ hr ih =>
    obtain ⟨ascending, inner⟩ := ho
    cases h' with
    | entry _ => exact absurd rfl hr.ne_nil
    | inside hm' _ hr' =>
      obtain rfl := ascending.eq_of_mem hm hm'
      exact ih (inner _ hm) hr'

-- ---------------------------------------------------------------------------
-- Leaves and their places
-- ---------------------------------------------------------------------------

mutual
/-- The leaves of a tree under its name, each behind the path to it. -/
def places : FieldTree → String → List (List String × FieldTree)
  | .mk required description selector fields, name =>
    if selector.isNone && !fields.isEmpty then
      (placesOfAll fields).map fun (path, leaf) => (name :: path, leaf)
    else [([name], .mk required description selector fields)]
termination_by structural tree => tree
def placesOf : String × FieldTree → List (List String × FieldTree)
  | (name, tree) => tree.places name
termination_by structural entry => entry
def placesOfAll : List (String × FieldTree) → List (List String × FieldTree)
  | [] => []
  | entry :: rest => placesOf entry ++ placesOfAll rest
termination_by structural entries => entries
end

/-- What holds of fields where it holds of the fields inside each of them. -/
theorem fields_induction {motive : List (String × FieldTree) → Prop}
    (step : ∀ fields, (∀ entry ∈ fields, motive entry.2.fields) → motive fields)
    (fields : List (String × FieldTree)) : motive fields :=
  step fields <| @FieldTree.rec_1 (fun tree => motive tree.fields)
    (fun fields => ∀ entry ∈ fields, motive entry.2.fields) (fun entry => motive entry.2.fields)
    (fun _ _ _ fields ih => step fields ih) (by simp)
    (fun _ _ first rest => List.forall_mem_cons.2 ⟨first, rest⟩) (fun _ _ ih => ih) fields

theorem placesOfAll_eq (fields : List (String × FieldTree)) :
    placesOfAll fields = fields.flatMap placesOf := by
  induction fields with
  | nil => rfl
  | cons entry rest ih => rw [placesOfAll, ih, List.flatMap_cons]

theorem leavesOfAll_eq (fields : List (String × FieldTree)) :
    leavesOfAll fields = fields.flatMap leavesOf := by
  induction fields with
  | nil => rfl
  | cons entry rest ih => rw [leavesOfAll, ih, List.flatMap_cons]

section
variable {name : String} {tree : FieldTree}

theorem isSection_test : (tree.selector?.isNone && !tree.fields.isEmpty) = true ↔ tree.IsSection := by
  simp [IsSection]

theorem placesOf_section (h : tree.IsSection) : placesOf (name, tree) =
    (placesOfAll tree.fields).map fun (path, leaf) => (name :: path, leaf) := by
  obtain ⟨required, description, selector, fields⟩ := tree
  exact if_pos (isSection_test.2 h)

theorem placesOf_leaf (h : ¬ tree.IsSection) : placesOf (name, tree) = [([name], tree)] := by
  obtain ⟨required, description, selector, fields⟩ := tree
  exact if_neg (isSection_test.not.2 h)

theorem leavesOf_section (h : tree.IsSection) :
    leavesOf (name, tree) = leavesOfAll tree.fields := by
  obtain ⟨required, description, selector, fields⟩ := tree
  exact if_pos (isSection_test.2 h)

theorem leavesOf_leaf (h : ¬ tree.IsSection) : leavesOf (name, tree) =
    [⟨name, (tree.selector?.bind List.head?).map declaredType, tree.required, tree.description⟩] := by
  obtain ⟨required, description, selector, fields⟩ := tree
  refine (if_neg (isSection_test.not.2 h)).trans ?_
  rw [Option.map_bind]
  rfl

end

theorem mem_placesOfAll {fields : List (String × FieldTree)} {path : List String} {leaf : FieldTree} :
    (path, leaf) ∈ placesOfAll fields ↔ Reaches fields path leaf ∧ ¬ leaf.IsSection := by
  induction fields using fields_induction generalizing path with
  | step fields ih =>
    rw [placesOfAll_eq, List.mem_flatMap]
    constructor
    · rintro ⟨⟨name, tree⟩, hm, hp⟩
      by_cases hs : tree.IsSection
      · rw [placesOf_section hs] at hp
        obtain ⟨⟨below, _⟩, hb, heq⟩ := List.mem_map.1 hp
        obtain ⟨rfl, rfl⟩ := Prod.mk.inj heq
        obtain ⟨hr, hl⟩ := (ih _ hm).1 hb
        exact ⟨.inside hm hs hr, hl⟩
      · rw [placesOf_leaf hs, List.mem_singleton] at hp
        obtain ⟨rfl, rfl⟩ := Prod.mk.inj hp
        exact ⟨.entry hm, hs⟩
    · rintro ⟨hr, hl⟩
      cases hr with
      | entry hm => exact ⟨_, hm, by rw [placesOf_leaf hl, List.mem_singleton]⟩
      | @inside _ name tree _ below hm hs hr =>
        refine ⟨_, hm, ?_⟩
        rw [placesOf_section hs]
        exact List.mem_map.2 ⟨_, (ih _ hm).2 ⟨hr, hl⟩, rfl⟩

theorem exists_eq_cons_of_mem_placesOf {name : String} {tree : FieldTree}
    {place : List String × FieldTree} (h : place ∈ placesOf (name, tree)) :
    ∃ rest, place.1 = name :: rest := by
  by_cases hs : tree.IsSection
  · rw [placesOf_section hs] at h
    obtain ⟨⟨path, _⟩, -, rfl⟩ := List.mem_map.1 h
    exact ⟨path, rfl⟩
  · rw [placesOf_leaf hs, List.mem_singleton] at h
    exact ⟨[], congrArg Prod.fst h⟩

/-- Depth first, with names that ascend at each level. -/
theorem pairwise_placesOfAll {fields : List (String × FieldTree)} (h : IsOrdered fields) :
    (placesOfAll fields).Pairwise fun place later => place.1 < later.1 := by
  induction h with
  | @mk fields ascending inner ih =>
    rw [placesOfAll_eq]
    refine List.pairwise_flatMap.2 ⟨?_, ?_⟩
    · rintro ⟨name, tree⟩ hm
      by_cases hs : tree.IsSection
      · rw [placesOf_section hs]
        refine List.pairwise_map.2 ((ih _ hm).imp fun hlt => ?_)
        exact List.cons_lt_cons_iff.2 (.inr ⟨rfl, hlt⟩)
      · rw [placesOf_leaf hs]
        exact List.pairwise_singleton _ _
    · refine ascending.imp fun hlt place hp later hl => ?_
      obtain ⟨rest, hp⟩ := exists_eq_cons_of_mem_placesOf hp
      obtain ⟨others, hl⟩ := exists_eq_cons_of_mem_placesOf hl
      rw [hp, hl]
      exact List.cons_lt_cons_iff.2 (.inl hlt)

theorem isListing_placesOfAll {fields : List (String × FieldTree)} (h : IsOrdered fields) :
    IsListing fields (placesOfAll fields) where
  leaves _ _ := mem_placesOfAll
  ascending := pairwise_placesOfAll h
  sections := by
    rintro path tree hr hs ⟨_, leaf⟩ hm rfl
    obtain ⟨hl, hn⟩ := mem_placesOfAll.1 hm
    exact hn (h.unique hr hl ▸ hs)

-- ---------------------------------------------------------------------------
-- The fields that leaves lend
-- ---------------------------------------------------------------------------

theorem isSome_typeNamed?_declaredType (kind : String) :
    (ServiceField.typeNamed? (declaredType kind)).isSome = true := by
  unfold declaredType
  split
  · rename_i hplain
    have hall : ∀ kind ∈ plainKinds, (ServiceField.typeNamed? kind).isSome = true := by decide +kernel
    exact hall kind (List.contains_iff_mem.1 hplain)
  · generalize hnamed : namedKinds.find? _ = named?
    cases named? with
    | none => decide +kernel
    | some named =>
      have hall : ∀ named ∈ namedKinds, (ServiceField.typeNamed? named.1).isSome = true := by
        decide +kernel
      exact hall named (List.mem_of_find?_eq_some hnamed)

theorem lends_of_fieldOf?_eq_some {place : List String × FieldTree} {field : ServiceField}
    (h : fieldOf? place = some field) : Lends place field := by
  obtain ⟨name, hname, rfl⟩ := Option.map_eq_some_iff.1 h
  refine ⟨hname, rfl, rfl, Option.map_eq_none_iff, fun type ht => ?_⟩
  obtain ⟨kind, -, rfl⟩ := Option.map_eq_some_iff.1 ht
  exact isSome_typeNamed?_declaredType kind

theorem fieldOf?_inside {path : List String} {leaf : FieldTree} {field : ServiceField}
    (h : fieldOf? (path, leaf) = some field) (name : String) :
    fieldOf? (name :: path, leaf) = some field := by
  obtain ⟨last, hlast, rfl⟩ := Option.map_eq_some_iff.1 h
  rw [fieldOf?, List.getLast?_cons, show path.getLast? = some last from hlast]
  rfl

theorem fieldOf?_leavesOfAll (fields : List (String × FieldTree)) :
    List.Forall₂ (fun place field => fieldOf? place = some field) (placesOfAll fields)
      (leavesOfAll fields) := by
  induction fields using fields_induction with
  | step fields ih =>
    have hentry : ∀ entry ∈ fields, List.Forall₂ (fun place field => fieldOf? place = some field)
        (placesOf entry) (leavesOf entry) := by
      rintro ⟨name, tree⟩ hm
      by_cases hs : tree.IsSection
      · rw [placesOf_section hs, leavesOf_section hs, List.forall₂_map_left_iff]
        exact (ih _ hm).imp fun _ _ hl => fieldOf?_inside hl name
      · rw [placesOf_leaf hs, leavesOf_leaf hs]
        exact .cons rfl .nil
    rw [placesOfAll_eq, leavesOfAll_eq]
    have hself : List.Forall₂ (fun entry other => entry = other ∧ entry ∈ fields) fields fields :=
      List.forall₂_same.2 fun _ hm => ⟨rfl, hm⟩
    refine List.rel_flatMap hself ?_
    rintro entry _ ⟨rfl, hm⟩
    exact hentry entry hm

theorem lends_leavesOfAll (fields : List (String × FieldTree)) :
    List.Forall₂ Lends (placesOfAll fields) (leavesOfAll fields) :=
  (fieldOf?_leavesOfAll fields).imp fun _ _ => lends_of_fieldOf?_eq_some

end FieldTree

end HomeHub
