import HomeHub.Model.Generate

/-!
# The check of a model

A model passes if its type names are distinct and so are the members of each definition. A clash of
type names is reported before one of members.
-/

namespace HomeHub

namespace TypeDefinition

theorem firstClash?_eq_none {earlier types : List TypeDefinition} :
    firstClash? earlier types = none ↔
      (types.map name).Nodup ∧ ∀ other ∈ earlier, ∀ definition ∈ types, other.name ≠ definition.name := by
  induction types generalizing earlier with
  | nil => simp [firstClash?]
  | cons definition rest ih =>
    unfold firstClash?
    split
    · rename_i other hf
      have hm := List.mem_of_find?_eq_some hf
      have hn : other.name = definition.name := by simpa using List.find?_some hf
      simp only [reduceCtorEq, false_iff, not_and]
      exact fun _ h => h other hm definition (by simp) hn
    · rename_i hf
      have hn : ∀ other ∈ earlier, other.name ≠ definition.name := by simpa using hf
      rw [ih]
      simp only [List.map_cons, List.nodup_cons, List.forall_mem_cons, List.mem_map, not_exists,
        not_and]
      constructor
      · rintro ⟨hd, hr, he⟩
        exact ⟨⟨fun other ho heq => hr other ho heq.symm, hd⟩, fun other ho => ⟨hn other ho, he other ho⟩⟩
      · rintro ⟨⟨hr, hd⟩, he⟩
        exact ⟨hd, fun other ho heq => hr other ho heq.symm, fun other ho => (he other ho).2⟩

end TypeDefinition

theorem firstRepeated?_eq_none {earlier texts : List String} :
    firstRepeated? earlier texts = none ↔ texts.Nodup ∧ ∀ text ∈ texts, text ∉ earlier := by
  induction texts generalizing earlier with
  | nil => simp [firstRepeated?]
  | cons text rest ih =>
    unfold firstRepeated?
    by_cases h : text ∈ earlier
    · simp [h]
    · rw [if_neg (by simpa using h), ih, List.nodup_cons, List.forall_mem_cons]
      constructor
      · rintro ⟨hr, hn⟩
        exact ⟨⟨fun hm => hn text hm List.mem_cons_self, hr⟩, h,
          fun other ho he => hn other ho (List.mem_cons_of_mem _ he)⟩
      · rintro ⟨⟨hm, hr⟩, -, hn⟩
        refine ⟨hr, fun other ho he => ?_⟩
        rcases List.mem_cons.1 he with rfl | he
        · exact hm ho
        · exact hn other ho he

namespace GeneratedModel

theorem check_eq_ok {types : List TypeDefinition} {model : GeneratedModel} :
    check types = .ok model ↔ (types.map TypeDefinition.name).Nodup ∧
      (∀ definition ∈ types, definition.memberIdentifiers.Nodup) ∧ model = ⟨types⟩ := by
  have hnames : TypeDefinition.firstClash? [] types = none ↔ (types.map TypeDefinition.name).Nodup := by
    simp [TypeDefinition.firstClash?_eq_none]
  have hmembers : (types.findSome? fun definition =>
      (firstRepeated? [] definition.memberIdentifiers).map (definition.name, ·)) = none ↔
        ∀ definition ∈ types, definition.memberIdentifiers.Nodup := by
    simp [List.findSome?_eq_none_iff, firstRepeated?_eq_none]
  rw [← hnames, ← hmembers]
  unfold check
  cases TypeDefinition.firstClash? [] types with
  | some clash => simp
  | none =>
    simp only [true_and]
    split
    · rename_i heq
      simp [heq]
    · rename_i heq
      simp [heq, eq_comm]

theorem check_eq_duplicateTypeName {types : List TypeDefinition} :
    (∃ name first second, check types = .error (.duplicateTypeName name first second)) ↔
      ¬ (types.map TypeDefinition.name).Nodup := by
  have hnone : TypeDefinition.firstClash? [] types = none ↔ (types.map TypeDefinition.name).Nodup := by
    simp [TypeDefinition.firstClash?_eq_none]
  rw [← hnone]
  unfold check
  cases TypeDefinition.firstClash? [] types with
  | some clash => simp
  | none =>
    simp only
    split <;> simp

theorem check_ne_unknownFieldType (types : List TypeDefinition)
    (domain service field typeName : String) :
    check types ≠ .error (.unknownFieldType domain service field typeName) := by
  unfold check
  split
  · simp
  · split <;> simp

theorem check_eq_duplicateMemberName {types : List TypeDefinition} :
    (∃ typeName member, check types = .error (.duplicateMemberName typeName member)) ↔
      (types.map TypeDefinition.name).Nodup ∧
        ∃ definition ∈ types, ¬ definition.memberIdentifiers.Nodup := by
  constructor
  · rintro ⟨typeName, member, h⟩
    by_cases hnames : (types.map TypeDefinition.name).Nodup
    · by_cases hmembers : ∀ definition ∈ types, definition.memberIdentifiers.Nodup
      · cases (check_eq_ok.2 ⟨hnames, hmembers, rfl⟩).symm.trans h
      · exact ⟨hnames, by simpa using hmembers⟩
    · obtain ⟨name, first, second, hclash⟩ := check_eq_duplicateTypeName.2 hnames
      cases hclash.symm.trans h
  · rintro ⟨hnames, definition, hm, hmembers⟩
    cases h : check types with
    | ok model => exact absurd ((check_eq_ok.1 h).2.1 definition hm) hmembers
    | error error =>
      cases error with
      | duplicateTypeName name first second =>
        exact absurd hnames (check_eq_duplicateTypeName.1 ⟨name, first, second, h⟩)
      | duplicateMemberName typeName member => exact ⟨typeName, member, rfl⟩
      | unknownFieldType domain service field typeName =>
        exact absurd h (check_ne_unknownFieldType types domain service field typeName)

end GeneratedModel

end HomeHub
