import HomeHub.Text.Ascending

/-!
# Sorted lists

Sorting loses nothing and adds nothing, and the ascending texts of a list are distinct. Where no two
items have one key, the sorted list does not tell in which order they came.
-/

namespace HomeHub.Text

theorem sortedBy_perm (key : α → String) (items : List α) : (sortedBy key items).Perm items :=
  List.mergeSort_perm items _

theorem sortedBy_of_pairwise {key : α → String} {items : List α}
    (h : items.Pairwise fun first second => key first ≤ key second) : sortedBy key items = items :=
  List.mergeSort_of_pairwise (h.imp fun hle => decide_eq_true hle)

theorem sortedByBoth_perm (key second : α → String) (items : List α) :
    (sortedByBoth key second items).Perm items :=
  List.mergeSort_perm items _

theorem sortedByBoth_of_pairwise {key second : α → String} {items : List α}
    (h : items.Pairwise fun a b => key a < key b ∨ key a = key b ∧ second a ≤ second b) :
    sortedByBoth key second items = items :=
  List.mergeSort_of_pairwise (h.imp fun hle => by simpa using hle)

theorem nodup_of_pairwise_lt {texts : List String} (h : texts.Pairwise (· < ·)) : texts.Nodup := by
  refine h.imp fun hlt heq => ?_
  subst heq
  exact String.lt_irrefl _ hlt

theorem nodup_ascending (texts : List String) : (ascending texts).Nodup :=
  nodup_of_pairwise_lt (pairwise_ascending texts)

-- ---------------------------------------------------------------------------
-- The order of the input
-- ---------------------------------------------------------------------------

theorem eq_of_pairwise_lt {texts others : List String} (ht : texts.Pairwise (· < ·))
    (ho : others.Pairwise (· < ·)) (h : ∀ text, text ∈ texts ↔ text ∈ others) : texts = others := by
  have hperm := (List.perm_ext_iff_of_nodup (nodup_of_pairwise_lt ht) (nodup_of_pairwise_lt ho)).2 h
  exact hperm.eq_of_pairwise (fun a b _ _ hab hba => absurd hba (String.lt_asymm hab)) ht ho

theorem ascending_congr {texts others : List String} (h : ∀ text, text ∈ texts ↔ text ∈ others) :
    ascending texts = ascending others :=
  eq_of_pairwise_lt (pairwise_ascending texts) (pairwise_ascending others) fun text => by
    rw [mem_ascending, mem_ascending, h]

theorem pairwise_sortedBy (key : α → String) (items : List α) :
    (sortedBy key items).Pairwise fun a b => key a ≤ key b := by
  have h : (sortedBy key items).Pairwise fun a b => decide (key a ≤ key b) = true :=
    List.pairwise_mergeSort (by simpa using fun a b c => String.le_trans)
      (by simpa using fun a b => String.le_total (key a) (key b)) items
  exact h.imp of_decide_eq_true

theorem filter_sortedBy (key : α → String) (items : List α) (text : String) :
    (sortedBy key items).filter (key · == text) = items.filter (key · == text) := by
  have hone : (items.filter (key · == text)).Pairwise fun a b => decide (key a ≤ key b) = true := by
    refine List.pairwise_iff_forall_sublist.2 fun {a b} hpair => ?_
    have ha := (List.mem_filter.1 (hpair.subset List.mem_cons_self)).2
    have hb := (List.mem_filter.1 (hpair.subset (List.mem_cons_of_mem _ List.mem_cons_self))).2
    rw [eq_of_beq ha, eq_of_beq hb]
    exact decide_eq_true (String.le_refl text)
  have hsub : (items.filter (key · == text)).Sublist (sortedBy key items) :=
    List.sublist_mergeSort (by simpa using fun a b c => String.le_trans)
      (by simpa using fun a b => String.le_total (key a) (key b)) hone List.filter_sublist
  have hfiltered := hsub.filter (key · == text)
  rw [List.filter_filter, List.filter_congr fun _ _ => Bool.and_self _] at hfiltered
  exact (hfiltered.eq_of_length ((sortedBy_perm key items).filter _).length_eq.symm).symm

/-- What holds from item to item of a list holds of the sorted list where keys are equal. -/
theorem pairwise_sortedBy_of_pairwise (key : α → String) {related : α → α → Prop} {items : List α}
    (h : items.Pairwise related) : (sortedBy key items).Pairwise fun a b =>
      key a < key b ∨ key a = key b ∧ related a b := by
  refine List.pairwise_iff_forall_sublist.2 fun {a b} hpair => ?_
  have hle : key a ≤ key b := List.pairwise_iff_forall_sublist.1 (pairwise_sortedBy key items) hpair
  by_cases heq : key a = key b
  · have hkept : [a, b].Sublist (items.filter (key · == key b)) := by
      have hfiltered := hpair.filter (key · == key b)
      rwa [filter_sortedBy, List.filter_cons_of_pos (by simp [heq]),
        List.filter_cons_of_pos (by simp), List.filter_nil] at hfiltered
    exact .inr ⟨heq, List.pairwise_iff_forall_sublist.1 h (hkept.trans List.filter_sublist)⟩
  · exact .inl (Std.lt_of_le_of_ne hle heq)

theorem mem_of_filter_eq {key : α → String} {items others : List α}
    (h : ∀ text, items.filter (key · == text) = others.filter (key · == text)) {item : α}
    (hm : item ∈ items) : item ∈ others := by
  have hkept : item ∈ items.filter (key · == key item) := List.mem_filter.2 ⟨hm, by simp⟩
  exact (List.mem_filter.1 (h (key item) ▸ hkept)).1

theorem eq_of_filter_eq {key : α → String} {items others : List α}
    (hi : items.Pairwise fun a b => key a ≤ key b) (ho : others.Pairwise fun a b => key a ≤ key b)
    (h : ∀ text, items.filter (key · == text) = others.filter (key · == text)) : items = others := by
  induction items generalizing others with
  | nil =>
    cases others with
    | nil => rfl
    | cons other rest => simpa using h (key other)
  | cons item rest ih =>
    obtain ⟨hfirst, hrest⟩ := List.pairwise_cons.1 hi
    cases others with
    | nil => simpa using h (key item)
    | cons other others =>
      obtain ⟨hother, hothers⟩ := List.pairwise_cons.1 ho
      have hkeys : key item = key other := by
        have hforth := mem_of_filter_eq h List.mem_cons_self
        have hback := mem_of_filter_eq (fun text => (h text).symm) List.mem_cons_self
        rcases List.mem_cons.1 hforth with rfl | hforth
        · rfl
        · rcases List.mem_cons.1 hback with rfl | hback
          · rfl
          · exact String.le_antisymm (hfirst other hback) (hother item hforth)
      have hheads := h (key item)
      rw [List.filter_cons_of_pos (by simp), List.filter_cons_of_pos (by simp [hkeys])] at hheads
      obtain ⟨rfl, -⟩ := List.cons.inj hheads
      refine congrArg (List.cons item) (ih hrest hothers fun text => ?_)
      have htext := h text
      simp only [List.filter_cons] at htext
      split at htext
      · exact (List.cons.inj htext).2
      · exact htext

theorem sortedBy_eq_of_perm {key : α → String} {items others : List α} (h : items.Perm others)
    (hinj : ∀ a ∈ items, ∀ b ∈ items, key a = key b → a = b) :
    sortedBy key items = sortedBy key others := by
  have hperm := (sortedBy_perm key items).trans (h.trans (sortedBy_perm key others).symm)
  refine hperm.eq_of_pairwise (fun a b ha hb hab hba => ?_) (pairwise_sortedBy key items)
    (pairwise_sortedBy key others)
  exact hinj a ((sortedBy_perm key items).mem_iff.1 ha) b
    (h.mem_iff.2 ((sortedBy_perm key others).mem_iff.1 hb)) (String.le_antisymm hab hba)

theorem map_sortedBy (f : α → β) (key : β → String) (items : List α) :
    (sortedBy (fun item => key (f item)) items).map f = sortedBy key (items.map f) :=
  List.map_mergeSort fun _ _ _ _ => rfl

/-- Of sorted items the keys never tell in which order the items came. -/
theorem map_sortedBy_eq_of_perm (key : α → String) {items others : List α} (h : items.Perm others) :
    (sortedBy key items).map key = (sortedBy key others).map key := by
  have hkeys (list : List α) : (sortedBy key list).map key = sortedBy id (list.map key) :=
    map_sortedBy key id list
  rw [hkeys, hkeys]
  exact sortedBy_eq_of_perm (h.map key) fun a _ b _ => id

theorem pairwise_sortedByBoth (key second : α → String) (items : List α) :
    (sortedByBoth key second items).Pairwise fun a b =>
      key a < key b ∨ key a = key b ∧ second a ≤ second b := by
  have h : (sortedByBoth key second items).Pairwise fun a b =>
      (decide (key a < key b) || (key a == key b && decide (second a ≤ second b))) = true :=
    List.pairwise_mergeSort (by grind) (by grind) items
  exact h.imp fun hle => by simpa using hle

theorem sortedByBoth_eq_of_perm {key second : α → String} {items others : List α}
    (h : items.Perm others) (hinj : ∀ a b, key a = key b → second a = second b → a = b) :
    sortedByBoth key second items = sortedByBoth key second others := by
  have hperm := (sortedByBoth_perm key second items).trans
    (h.trans (sortedByBoth_perm key second others).symm)
  refine hperm.eq_of_pairwise (fun a b _ _ hab hba => hinj a b ?_ ?_)
    (pairwise_sortedByBoth key second items) (pairwise_sortedByBoth key second others)
  · grind
  · grind

end HomeHub.Text
