import HomeHub.Naming
import HomeHub.Proofs.Lists
import HomeHub.Proofs.Sorted
import Mathlib.Data.List.Nodup

/-!
# Numbers of shared identifiers

Items that share an identifier are numbered from zero on in the order of their source keys, and every
number below their count is taken once. The identifier and the number can be read back from a numbered
name, so two numbered names never meet. All that a numbered name can meet is the identifier of an item
that shares it with no other.
-/

namespace HomeHub

-- ---------------------------------------------------------------------------
-- Ranks
-- ---------------------------------------------------------------------------

section
variable {items : List α}

theorem map_countP_of_pairwise {before : α → α → Bool} (irrefl : ∀ item, before item item = false)
    (asymm : ∀ a b, before a b = true → before b a = false)
    (h : items.Pairwise fun a b => before a b = true) :
    (items.map fun item => items.countP (before · item)) = List.range items.length := by
  induction items with
  | nil => rfl
  | cons first rest ih =>
    obtain ⟨hfirst, hrest⟩ := List.pairwise_cons.1 h
    have hzero : (first :: rest).countP (before · first) = 0 := by
      refine List.countP_eq_zero.2 (List.forall_mem_cons.2 ⟨by simp [irrefl], fun item hm => ?_⟩)
      simp [asymm _ _ (hfirst item hm)]
    have hsucc : (rest.map fun item => (first :: rest).countP (before · item)) =
        (rest.map fun item => rest.countP (before · item)).map Nat.succ := by
      rw [List.map_map]
      exact List.map_congr_left fun item hm => List.countP_cons_of_pos (hfirst item hm)
    rw [List.map_cons, hzero, hsucc, ih hrest, List.length_cons, List.range_succ_eq_map]

theorem eq_of_append_cons_eq {front front' back back' : List α} {separator : α}
    (h : front ++ separator :: back = front' ++ separator :: back') (hb : separator ∉ back)
    (hb' : separator ∉ back') : front = front' ∧ back = back' := by
  rcases List.append_eq_append_iff.1 h with ⟨between, rfl, hs⟩ | ⟨between, rfl, hs⟩
  · cases between with
    | nil => simpa using hs
    | cons c rest => simp_all
  · cases between with
    | nil => simpa [eq_comm] using hs
    | cons c rest => simp_all

end

namespace Naming

-- ---------------------------------------------------------------------------
-- Numbered names
-- ---------------------------------------------------------------------------

theorem toList_numbered (identifier : String) (n : Nat) :
    (numbered identifier n).toList = identifier.toList ++ '_' :: Nat.toDigits 10 n := by
  simp [numbered]

theorem underscore_notMem_toDigits (n : Nat) : '_' ∉ Nat.toDigits 10 n := fun hm =>
  absurd (Nat.isDigit_of_mem_toDigits (by decide) (by decide) hm) (by decide)

/-- The number stands behind the last underscore. -/
theorem numbered_inj {identifier other : String} {n m : Nat}
    (h : numbered identifier n = numbered other m) : identifier = other ∧ n = m := by
  have hl := congrArg String.toList h
  rw [toList_numbered, toList_numbered] at hl
  obtain ⟨hi, hd⟩ := eq_of_append_cons_eq hl (underscore_notMem_toDigits n)
    (underscore_notMem_toDigits m)
  refine ⟨String.toList_inj.1 hi, ?_⟩
  calc
    n = Nat.ofDigitChars 10 (Nat.toDigits 10 n) 0 := Nat.ofDigitChars_ten_toDigits.symm
    _ = Nat.ofDigitChars 10 (Nat.toDigits 10 m) 0 := by rw [hd]
    _ = m := Nat.ofDigitChars_ten_toDigits

-- ---------------------------------------------------------------------------
-- Names in one scope
-- ---------------------------------------------------------------------------

def sharing (items : List Named) (identifier : String) : List (Named × Nat) :=
  items.zipIdx.filter fun (other, _) => other.identifier == identifier

/-- How many items share an identifier. -/
def shares (items : List Named) (identifier : String) : Nat :=
  (items.map Named.identifier).count identifier

section
variable {items : List Named} {item other first second : Named} {identifier : String}
  {i j position : Nat}

theorem mem_sharing : (item, position) ∈ sharing items identifier ↔
    items[position]? = some item ∧ item.identifier = identifier := by
  simp [sharing, List.mem_zipIdx_iff_getElem?]

theorem length_sharing (items : List Named) (identifier : String) :
    (sharing items identifier).length = shares items identifier := by
  have hfst := map_fst_filter_zipIdx (fun other => other.identifier == identifier) items
  rw [shares, List.count_eq_countP, List.countP_map, List.countP_eq_length_filter]
  exact (List.length_map _).symm.trans (congrArg List.length hfst)

def comesBefore (item other : Named × Nat) : Bool :=
  item.1.sourceKey < other.1.sourceKey ||
    (item.1.sourceKey == other.1.sourceKey && item.2 < other.2)

theorem comesBefore_eq_true {a b : Named × Nat} : comesBefore a b = true ↔
    a.1.sourceKey < b.1.sourceKey ∨ a.1.sourceKey = b.1.sourceKey ∧ a.2 < b.2 := by
  simp [comesBefore]

theorem comesBefore_self (item : Named × Nat) : comesBefore item item = false := by
  simp [comesBefore]

theorem comesBefore_trans {a b c : Named × Nat} (hab : comesBefore a b = true)
    (hbc : comesBefore b c = true) : comesBefore a c = true := by
  rw [comesBefore_eq_true] at hab hbc ⊢
  rcases hab with hab | ⟨hab, hlt⟩
  · rcases hbc with hbc | ⟨hbc, -⟩
    · exact .inl (String.lt_trans hab hbc)
    · exact .inl (hbc ▸ hab)
  · rcases hbc with hbc | ⟨hbc, hlt'⟩
    · exact .inl (hab ▸ hbc)
    · exact .inr ⟨hab.trans hbc, Nat.lt_trans hlt hlt'⟩

theorem comesBefore_asymm {a b : Named × Nat} (h : comesBefore a b = true) :
    comesBefore b a = false :=
  Bool.eq_false_iff.2 fun hba =>
    absurd (comesBefore_trans h hba) (by simp [comesBefore_self])

/-- The items that share an identifier, sorted by source key. Sorting leaves those with one source key
as they stand. -/
def inOrder (items : List Named) (identifier : String) : List (Named × Nat) :=
  Text.sortedBy (fun (item, _) => item.sourceKey) (sharing items identifier)

theorem inOrder_perm (items : List Named) (identifier : String) :
    (inOrder items identifier).Perm (sharing items identifier) :=
  Text.sortedBy_perm _ _

theorem mem_inOrder : (item, position) ∈ inOrder items identifier ↔
    items[position]? = some item ∧ item.identifier = identifier :=
  (inOrder_perm items identifier).mem_iff.trans mem_sharing

theorem length_inOrder (items : List Named) (identifier : String) :
    (inOrder items identifier).length = shares items identifier :=
  (inOrder_perm items identifier).length_eq.trans (length_sharing items identifier)

theorem pairwise_sharing (items : List Named) (identifier : String) :
    (sharing items identifier).Pairwise fun a b => a.2 < b.2 := by
  have hplaces : (items.zipIdx.map Prod.snd).Pairwise (· < ·) := by
    rw [List.zipIdx_map_snd]
    exact List.pairwise_lt_range'
  exact (List.pairwise_map.1 hplaces).filter _

theorem pairwise_inOrder (items : List Named) (identifier : String) :
    (inOrder items identifier).Pairwise fun a b => comesBefore a b = true :=
  (Text.pairwise_sortedBy_of_pairwise _ (pairwise_sharing items identifier)).imp
    comesBefore_eq_true.2

theorem ranks_inOrder (items : List Named) (identifier : String) :
    ((inOrder items identifier).map fun (item, position) =>
      rank (sharing items identifier) item position) = List.range (shares items identifier) := by
  have hrank (placed : Named × Nat) : rank (sharing items identifier) placed.1 placed.2 =
      (inOrder items identifier).countP (comesBefore · placed) :=
    ((inOrder_perm items identifier).countP_eq _).symm
  simp only [hrank]
  rw [← length_inOrder]
  exact map_countP_of_pairwise comesBefore_self (fun a b => comesBefore_asymm)
    (pairwise_inOrder items identifier)

theorem ranks_sharing_perm (items : List Named) (identifier : String) :
    ((sharing items identifier).map fun (item, position) =>
      rank (sharing items identifier) item position).Perm (List.range (shares items identifier)) :=
  ((inOrder_perm items identifier).symm.map _).trans (.of_eq (ranks_inOrder items identifier))

theorem one_le_shares (hi : items[position]? = some item) : 1 ≤ shares items item.identifier :=
  List.count_pos_iff.2 (List.mem_map_of_mem (List.mem_of_getElem? hi))

theorem getElem?_dedupe (hi : items[position]? = some item) : (dedupe items)[position]? =
    some (if shares items item.identifier < 2 then item.identifier
      else numbered item.identifier (rank (sharing items item.identifier) item position)) := by
  rw [← length_sharing]
  simp only [dedupe, List.getElem?_map, List.getElem?_zipIdx, hi, Option.map_some, Nat.zero_add]
  rfl

theorem getElem?_dedupe_single (hi : items[position]? = some item)
    (hs : shares items item.identifier = 1) : (dedupe items)[position]? = some item.identifier := by
  rw [getElem?_dedupe hi, if_pos (hs ▸ Nat.one_lt_two)]

theorem getElem?_dedupe_shared (hi : items[position]? = some item)
    (hs : 2 ≤ shares items item.identifier) : (dedupe items)[position]? =
      some (numbered item.identifier (rank (sharing items item.identifier) item position)) := by
  rw [getElem?_dedupe hi, if_neg (Nat.not_lt.2 hs)]

/-- How the item at a place is named: as it is where it shares its identifier with no other, and else
with its rank among those that share it. -/
inductive IsNamed (items : List Named) (position : Nat) (item : Named) : String → Prop where
  | alone (h : shares items item.identifier = 1) : IsNamed items position item item.identifier
  | numbered (h : 2 ≤ shares items item.identifier)
      (hlt : rank (sharing items item.identifier) item position < shares items item.identifier) :
      IsNamed items position item
        (Naming.numbered item.identifier (rank (sharing items item.identifier) item position))

theorem isNamed_of_getElem? (hi : items[position]? = some item) :
    ∃ name, (dedupe items)[position]? = some name ∧ IsNamed items position item name := by
  rcases Nat.eq_or_lt_of_le (one_le_shares hi) with hs | hs
  · exact ⟨_, getElem?_dedupe_single hi hs.symm, .alone hs.symm⟩
  · refine ⟨_, getElem?_dedupe_shared hi hs, .numbered hs ?_⟩
    refine List.mem_range.1 ((ranks_sharing_perm items item.identifier).mem_iff.1 ?_)
    exact List.mem_map.2 ⟨(item, position), mem_sharing.2 ⟨hi, rfl⟩, rfl⟩

/-- Every number below the count of the items that share an identifier is the rank of one of them. -/
theorem exists_numbered {n : Nat} (hs : 2 ≤ shares items identifier)
    (hn : n < shares items identifier) : ∃ (position : Nat) (item : Named),
      items[position]? = some item ∧ item.identifier = identifier ∧
        (dedupe items)[position]? = some (numbered identifier n) := by
  have hrank := (ranks_sharing_perm items identifier).mem_iff.2 (List.mem_range.2 hn)
  obtain ⟨⟨item, position⟩, hm, rfl⟩ := List.mem_map.1 hrank
  obtain ⟨hi, rfl⟩ := mem_sharing.1 hm
  exact ⟨position, item, hi, rfl, getElem?_dedupe_shared hi hs⟩

/-- Several of the identifiers are equal, and there is one that looks like the numbered name of one of
them. -/
structure IsMet (identifiers : List String) (shared : String) (n : Nat) : Prop where
  several : 2 ≤ identifiers.count shared
  lt : n < identifiers.count shared
  single : identifiers.count (numbered shared n) = 1

theorem IsMet.congr {identifiers others : List String} (h : identifiers.Perm others) {shared : String}
    {n : Nat} : IsMet identifiers shared n ↔ IsMet others shared n := by
  constructor
  · rintro ⟨hs, hlt, hu⟩
    exact ⟨h.count_eq shared ▸ hs, h.count_eq shared ▸ hlt, h.count_eq _ ▸ hu⟩
  · rintro ⟨hs, hlt, hu⟩
    exact ⟨h.count_eq shared ▸ hs, h.count_eq shared ▸ hlt, h.count_eq _ ▸ hu⟩

/-- Two items under one name: one of them is numbered and meets the other, which is not. -/
theorem isMet_of_getElem?_eq (hne : i ≠ j) (hi : items[i]? = some first) (hj : items[j]? = some second)
    (h : (dedupe items)[i]? = (dedupe items)[j]?) : ∃ n,
      IsMet (items.map Named.identifier) first.identifier n ∧
          second.identifier = numbered first.identifier n ∨
        IsMet (items.map Named.identifier) second.identifier n ∧
          first.identifier = numbered second.identifier n := by
  obtain ⟨name, hname, hf⟩ := isNamed_of_getElem? hi
  obtain ⟨other, hother, hs⟩ := isNamed_of_getElem? hj
  have heq : name = other := Option.some.inj (hname.symm.trans (h.trans hother))
  have hfirst : (first, i) ∈ sharing items first.identifier := mem_sharing.2 ⟨hi, rfl⟩
  cases hf with
  | alone hf =>
    cases hs with
    | alone =>
      -- an identifier that one item has stands at one place
      have hsecond : (second, j) ∈ sharing items first.identifier := mem_sharing.2 ⟨hj, heq.symm⟩
      obtain ⟨only, ho⟩ := List.length_eq_one_iff.1 ((length_sharing ..).trans hf)
      rw [ho, List.mem_singleton] at hfirst hsecond
      exact absurd (Prod.mk.inj (hfirst.trans hsecond.symm)).2 hne
    | numbered hs hlt => exact ⟨_, .inr ⟨⟨hs, hlt, heq ▸ hf⟩, heq⟩⟩
  | numbered hf hlt =>
    cases hs with
    | alone hs => exact ⟨_, .inl ⟨⟨hf, hlt, heq ▸ hs⟩, heq.symm⟩⟩
    | numbered =>
      obtain ⟨hidentifier, hrank⟩ := numbered_inj heq
      have hsecond : (second, j) ∈ sharing items first.identifier :=
        mem_sharing.2 ⟨hj, hidentifier.symm⟩
      have hranks := (ranks_sharing_perm items first.identifier).nodup_iff.2 List.nodup_range
      rw [← hidentifier] at hrank
      exact absurd (Prod.mk.inj (List.inj_on_of_nodup_map hranks hfirst hsecond hrank)).2 hne

theorem nodup_dedupe : (dedupe items).Nodup ↔
    ∀ shared n, ¬ IsMet (items.map Named.identifier) shared n := by
  constructor
  · rintro hn shared n ⟨hs, hlt, hu⟩
    obtain ⟨i, item, hi, rfl, hname⟩ := exists_numbered hs hlt
    have hmem : numbered item.identifier n ∈ items.map Named.identifier :=
      List.count_pos_iff.1 (by omega)
    obtain ⟨other, ho, heq⟩ := List.mem_map.1 hmem
    obtain ⟨j, hj⟩ := List.getElem?_of_mem ho
    have halone : shares items other.identifier = 1 := heq ▸ hu
    have hother := getElem?_dedupe_single hj halone
    -- one name at two places, for the items there have different identifiers
    have hplaces : i = j := by
      obtain ⟨hlt, -⟩ := List.getElem?_eq_some_iff.1 hname
      exact (List.getElem?_inj hlt hn).1 (hname.trans (heq ▸ hother.symm))
    subst hplaces
    cases Option.some.inj (hi.symm.trans hj)
    unfold shares at halone
    omega
  · intro h
    refine List.nodup_iff_getElem?_ne_getElem?.2 fun i j hlt hl heq => ?_
    rw [length_dedupe] at hl
    obtain ⟨n, hm | hm⟩ := isMet_of_getElem?_eq (Nat.ne_of_lt hlt)
      (List.getElem?_eq_getElem (Nat.lt_trans hlt hl)) (List.getElem?_eq_getElem hl) heq
    · exact h _ n hm.1
    · exact h _ n hm.1

end

end Naming

end HomeHub
