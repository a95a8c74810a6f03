import Mathlib.Data.List.Perm.Basic

/-!
# Interleaving

Several lists as one that has all their items, each once, and those of each list in order.
-/

namespace HomeHub

theorem zipWith_append_of_forall_eq_nil {parts more : List (List α)} (h : ∀ part ∈ parts, part = [])
    (hl : more.length = parts.length) : List.zipWith (· ++ ·) parts more = more := by
  induction parts generalizing more with
  | nil => rw [List.eq_nil_of_length_eq_zero hl, List.zipWith_nil_left]
  | cons part rest ih =>
    obtain ⟨rfl, hr⟩ := List.forall_mem_cons.1 h
    cases more with
    | nil => simp at hl
    | cons first others => rw [List.zipWith_cons_cons, List.nil_append, ih hr (by simpa using hl)]

/-- The whole is made by taking first items of the parts until none is left. -/
inductive Interleaves {α : Type} : List (List α) → List α → Prop where
  | nil {parts : List (List α)} (h : ∀ part ∈ parts, part = []) : Interleaves parts []
  | cons {front back : List (List α)} {item : α} {rest whole : List α}
      (h : Interleaves (front ++ rest :: back) whole) :
      Interleaves (front ++ (item :: rest) :: back) (item :: whole)

namespace Interleaves

variable {α : Type} {parts others more : List (List α)} {whole tail : List α}

theorem perm (h : Interleaves parts whole) : whole.Perm parts.flatten := by
  induction h with
  | nil h => rw [List.flatten_eq_nil_iff.2 h]
  | cons _ ih =>
    simp only [List.flatten_append, List.flatten_cons, List.cons_append] at ih ⊢
    exact (ih.cons _).trans List.perm_middle.symm

theorem mem_iff (h : Interleaves parts whole) {item : α} :
    item ∈ whole ↔ ∃ part ∈ parts, item ∈ part :=
  h.perm.mem_iff.trans List.mem_flatten

theorem perm_of_count {β : Type} [BEq β] [LawfulBEq β] {f : β → List α} {items : List β}
    (h : Interleaves (items.map f) whole) (item : β) :
    whole.Perm ((List.replicate (items.count item) (f item)).flatten ++
      (items.filter fun other => !(other == item)).flatMap f) := by
  have hsplit := (List.filter_append_perm (· == item) items).symm.flatMap_right f
  rw [List.flatMap_append, List.filter_beq, List.flatMap_replicate, List.flatMap_def] at hsplit
  exact h.perm.trans hsplit

theorem eq_nil (h : Interleaves parts []) : ∀ part ∈ parts, part = [] := by
  cases h with
  | nil h => exact h

theorem nils_append (h : Interleaves parts whole) (ho : ∀ part ∈ others, part = []) :
    Interleaves (others ++ parts) whole := by
  induction h with
  | nil h => exact .nil (List.forall_mem_append.2 ⟨ho, h⟩)
  | cons _ ih =>
    rw [← List.append_assoc] at ih ⊢
    exact .cons ih

theorem append_nils (h : Interleaves parts whole) (ho : ∀ part ∈ others, part = []) :
    Interleaves (parts ++ others) whole := by
  induction h with
  | nil h => exact .nil (List.forall_mem_append.2 ⟨h, ho⟩)
  | cons _ ih =>
    rw [List.append_assoc, List.cons_append] at ih ⊢
    exact .cons ih

theorem cons_nil (h : Interleaves parts whole) : Interleaves ([] :: parts) whole :=
  List.singleton_append ▸ h.nils_append (List.forall_mem_singleton.2 rfl)

theorem single (item : α) (ho : ∀ part ∈ others, part = []) :
    Interleaves ([item] :: others) [item] := by
  have hnone : Interleaves ([] ++ [] :: others) [] := .nil (by simpa using ho)
  exact hnone.cons

theorem append (h : Interleaves parts whole) (hm : Interleaves more tail)
    (hl : more.length = parts.length) :
    Interleaves (List.zipWith (· ++ ·) parts more) (whole ++ tail) := by
  induction h generalizing more with
  | nil h => rwa [zipWith_append_of_forall_eq_nil h hl]
  | @cons front back item rest whole _ ih =>
    have hlength : more.length = (front ++ rest :: back).length := by simpa using hl
    obtain ⟨first, others, rfl, hf⟩ : ∃ first others, more = first ++ others ∧
        first.length = front.length := by
      refine ⟨more.take front.length, more.drop front.length, (List.take_append_drop ..).symm, ?_⟩
      simp at hlength ⊢
      omega
    obtain ⟨part, last, rfl⟩ : ∃ part last, others = part :: last := by
      cases others with
      | nil => simp [hf] at hlength
      | cons part last => exact ⟨part, last, rfl⟩
    have hparts := ih hm hlength
    rw [List.zipWith_append hf.symm, List.zipWith_cons_cons] at hparts ⊢
    exact hparts.cons

end Interleaves

end HomeHub
