/-!
# Texts in ascending order

The distinct texts of a list, by code points. The order is the one of their UTF-8 bytes.
-/

namespace HomeHub.Text

def insertAscending (text : String) : List String → List String
  | [] => [text]
  | first :: rest =>
    if text < first then text :: first :: rest
    else if text = first then first :: rest
    else first :: insertAscending text rest

def ascending (texts : List String) : List String :=
  texts.foldr insertAscending []

/-- Texts sorted by a key, those with one key in the order they come in. -/
def sortedBy {α : Type} (key : α → String) (items : List α) : List α :=
  items.mergeSort fun a b => decide (key a ≤ key b)

/-- Sorted by a key and, where that is equal, by a second one. -/
def sortedByBoth {α : Type} (key second : α → String) (items : List α) : List α :=
  items.mergeSort fun a b =>
    decide (key a < key b) || (key a == key b && decide (second a ≤ second b))

theorem mem_insertAscending {text other : String} {texts : List String} :
    other ∈ insertAscending text texts ↔ other = text ∨ other ∈ texts := by
  induction texts with
  | nil => simp [insertAscending]
  | cons first rest ih => grind [insertAscending]

theorem mem_ascending {text : String} {texts : List String} :
    text ∈ ascending texts ↔ text ∈ texts := by
  induction texts with
  | nil => simp [ascending]
  | cons first rest ih =>
    have h : ascending (first :: rest) = insertAscending first (ascending rest) := rfl
    rw [h, mem_insertAscending, ih, List.mem_cons]

theorem pairwise_insertAscending {text : String} {texts : List String}
    (h : texts.Pairwise (· < ·)) : (insertAscending text texts).Pairwise (· < ·) := by
  induction texts with
  | nil => simp [insertAscending]
  | cons first rest ih =>
    obtain ⟨hf, hr⟩ := List.pairwise_cons.1 h
    unfold insertAscending
    split
    · rename_i hlt
      refine List.pairwise_cons.2 ⟨fun other hm => ?_, h⟩
      rcases List.mem_cons.1 hm with rfl | hm
      · exact hlt
      · exact String.lt_trans hlt (hf other hm)
    · split
      · exact h
      · rename_i hlt hne
        refine List.pairwise_cons.2 ⟨fun other hm => ?_, ih hr⟩
        rcases mem_insertAscending.1 hm with rfl | hm
        · exact Std.not_le.1 fun hle => (hne (Std.le_antisymm hle (Std.not_lt.1 hlt)))
        · exact hf other hm

theorem pairwise_ascending (texts : List String) : (ascending texts).Pairwise (· < ·) := by
  induction texts with
  | nil => simp [ascending]
  | cons first rest ih => exact pairwise_insertAscending ih

end HomeHub.Text
