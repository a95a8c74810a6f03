/-!
# Tables

Entries under text keys, in ascending order of their keys, one entry a key. Every table of this
library is built from the empty one by `insert` and `erase`.
-/

namespace HomeHub

abbrev Table (α : Type) := List (String × α)

namespace Table

variable {α : Type}

def get? (table : Table α) (key : String) : Option α :=
  (table.find? (·.1 == key)).map (·.2)

def contains (table : Table α) (key : String) : Bool :=
  (table.get? key).isSome

def insert (table : Table α) (key : String) (value : α) : Table α :=
  match table with
  | [] => [(key, value)]
  | (other, old) :: rest =>
    if key < other then (key, value) :: (other, old) :: rest
    else if key = other then (key, value) :: rest
    else (other, old) :: insert rest key value

def erase (table : Table α) (key : String) : Table α :=
  table.filter (·.1 != key)

/-- Of entries under one key the last counts. -/
def ofList (entries : List (String × α)) : Table α :=
  entries.foldl (fun table entry => table.insert entry.1 entry.2) []

def IsAscending (table : Table α) : Prop :=
  table.Pairwise fun entry later => entry.1 < later.1

theorem get?_nil (key : String) : get? ([] : Table α) key = none := rfl

theorem get?_cons (entry : String × α) (rest : Table α) (key : String) :
    get? (entry :: rest) key = if entry.1 = key then some entry.2 else get? rest key := by
  by_cases h : entry.1 = key <;> simp [get?, h]

theorem get?_eq_lookup (table : Table α) (key : String) : table.get? key = List.lookup key table := by
  induction table with
  | nil => rfl
  | cons entry rest ih =>
    rw [get?_cons, List.lookup_cons, ih]
    by_cases h : entry.1 = key
    · simp [h]
    · simp [h, beq_false_of_ne (Ne.symm h)]

theorem mem_of_get?_eq_some {table : Table α} {key : String} {value : α}
    (h : table.get? key = some value) : (key, value) ∈ table := by
  obtain ⟨⟨other, found⟩, hf, rfl⟩ := Option.map_eq_some_iff.1 h
  have heq : other = key := by simpa using List.find?_some hf
  exact heq ▸ List.mem_of_find?_eq_some hf

theorem contains_eq_true {table : Table α} {key : String} :
    table.contains key = true ↔ key ∈ table.map Prod.fst := by
  simp [contains, get?]

theorem get?_insert (table : Table α) (key other : String) (value : α) :
    (table.insert key value).get? other = if key = other then some value else table.get? other := by
  induction table with
  | nil => simp [insert, get?_cons, get?_nil]
  | cons entry rest ih =>
    unfold insert
    split
    · simp [get?_cons]
    · split
      · rename_i h
        simp only [get?_cons]
        grind
      · simp only [get?_cons, ih]
        grind

theorem get?_insert_self (table : Table α) (key : String) (value : α) :
    (table.insert key value).get? key = some value :=
  (get?_insert table key key value).trans (if_pos rfl)

theorem get?_erase (table : Table α) (key other : String) :
    (table.erase key).get? other = if key = other then none else table.get? other := by
  induction table with
  | nil => simp [erase, get?_nil]
  | cons entry rest ih =>
    simp only [erase, List.filter_cons] at ih ⊢
    split <;> simp only [get?_cons, ih] <;> grind

theorem mem_insert {table : Table α} {key : String} {value : α} {entry : String × α}
    (h : entry ∈ table.insert key value) : entry = (key, value) ∨ entry ∈ table := by
  induction table with
  | nil => simpa [insert] using h
  | cons first rest ih =>
    unfold insert at h
    grind

theorem isAscending_insert {table : Table α} (h : table.IsAscending) (key : String) (value : α) :
    (table.insert key value).IsAscending := by
  induction table with
  | nil => simp [insert, IsAscending]
  | cons first rest ih =>
    obtain ⟨hf, hr⟩ := List.pairwise_cons.1 h
    unfold insert
    split
    · rename_i hlt
      refine List.pairwise_cons.2 ⟨fun entry hm => ?_, h⟩
      rcases List.mem_cons.1 hm with rfl | hm
      · exact hlt
      · exact String.lt_trans hlt (hf entry hm)
    · split
      · rename_i heq
        exact List.pairwise_cons.2 ⟨fun entry hm => heq ▸ hf entry hm, hr⟩
      · rename_i hlt hne
        refine List.pairwise_cons.2 ⟨fun entry hm => ?_, ih hr⟩
        rcases mem_insert hm with rfl | hm
        · exact Std.not_le.1 fun hle => hne (Std.le_antisymm hle (Std.not_lt.1 hlt))
        · exact hf entry hm

theorem IsAscending.get?_of_mem {table : Table α} (h : table.IsAscending) {key : String} {value : α}
    (hm : (key, value) ∈ table) : table.get? key = some value := by
  induction table with
  | nil => simp at hm
  | cons first rest ih =>
    obtain ⟨hf, hr⟩ := List.pairwise_cons.1 h
    rw [get?_cons]
    rcases List.mem_cons.1 hm with rfl | hm
    · exact if_pos rfl
    · rw [if_neg (String.ne_of_lt (hf _ hm)), ih hr hm]

theorem isAscending_erase {table : Table α} (h : table.IsAscending) (key : String) :
    (table.erase key).IsAscending :=
  h.filter _

end Table

end HomeHub
