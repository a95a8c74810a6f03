import Mathlib.Data.List.Forall2
import Mathlib.Data.List.Perm.Basic

/-!
# Places in lists

Where an item stands in a list: when the list grows at its end, when some of its items are kept, when
items have keys, and when two places hold one value.
-/

namespace HomeHub

theorem getElem?_concat_eq_some {items : List α} {item other : α} {place : Nat} :
    (items ++ [item])[place]? = some other ↔
      items[place]? = some other ∨ place = items.length ∧ item = other := by
  rcases Nat.lt_trichotomy place items.length with hlt | rfl | hlt
  · simp [List.getElem?_append_left hlt, Nat.ne_of_lt hlt]
  · simp
  · have hn : items.length ≤ place := Nat.le_of_lt hlt
    simp [List.getElem?_append_right hn, Nat.ne_of_gt hlt, List.getElem?_eq_none hn,
      Nat.ne_of_gt (Nat.sub_pos_of_lt hlt)]

theorem concat_eq_append_cons {items front back : List α} {last item : α} :
    items ++ [last] = front ++ item :: back ↔
      items = front ∧ last = item ∧ back = [] ∨
        ∃ rest, back = rest ++ [last] ∧ items = front ++ item :: rest := by
  constructor
  · intro h
    rcases List.append_eq_append_iff.1 h with ⟨between, rfl, hb⟩ | ⟨between, rfl, hb⟩
    · obtain ⟨rfl, rfl, rfl⟩ : between = [] ∧ last = item ∧ back = [] := by
        cases between <;> simp_all
      exact .inl ⟨(List.append_nil _).symm, rfl, rfl⟩
    · cases between with
      | nil => exact .inl ⟨List.append_nil _, by simp_all⟩
      | cons first rest =>
        obtain ⟨rfl, rfl⟩ := List.cons.inj hb
        exact .inr ⟨rest, rfl, rfl⟩
  · rintro (⟨rfl, rfl, rfl⟩ | ⟨rest, rfl, rfl⟩) <;> simp

theorem map_fst_filter_zipIdx (keep : α → Bool) (items : List α) :
    (items.zipIdx.filter fun (item, _) => keep item).map (·.1) = items.filter keep := by
  conv_rhs => rw [← List.zipIdx_map_fst 0 items, List.filter_map]
  rfl

/-- What stands among the kept items of a list stands in the list, behind as many kept ones. -/
theorem exists_eq_append_of_getElem?_filter {keep : α → Bool} {items : List α} {item : α}
    {place : Nat} (h : (items.filter keep)[place]? = some item) :
    ∃ front back, items = front ++ item :: back ∧ keep item = true ∧
      (front.filter keep).length = place := by
  induction items generalizing place with
  | nil => simp at h
  | cons first rest ih =>
    by_cases hk : keep first = true
    · rw [List.filter_cons_of_pos hk] at h
      cases place with
      | zero =>
        obtain rfl : first = item := by simpa using h
        exact ⟨[], rest, rfl, hk, rfl⟩
      | succ place =>
        obtain ⟨front, back, rfl, hi, rfl⟩ := ih (by simpa using h)
        exact ⟨first :: front, back, rfl, hi, by rw [List.filter_cons_of_pos hk]; rfl⟩
    · rw [List.filter_cons_of_neg hk] at h
      obtain ⟨front, back, rfl, hi, hl⟩ := ih h
      exact ⟨first :: front, back, rfl, hi, by rwa [List.filter_cons_of_neg hk]⟩

theorem exists_eq_append_cons {keep : α → Bool} {items first front : List α} {item : α}
    (hfirst : first ++ [item] <+: items) (hfront : front <+: items)
    (hlt : (first.filter keep).length < (front.filter keep).length) :
    ∃ between, front = first ++ item :: between := by
  rcases Nat.lt_or_ge first.length front.length with hlength | hlength
  · have hle : (first ++ [item]).length ≤ front.length := by rwa [List.length_append]
    obtain ⟨between, rfl⟩ := List.prefix_of_prefix_length_le hfirst hfront hle
    exact ⟨between, by simp⟩
  · have hsub := List.prefix_of_prefix_length_le hfront ((List.prefix_append _ _).trans hfirst) hlength
    exact absurd (hsub.sublist.filter keep).length_le (Nat.not_le_of_lt hlt)

theorem filter_key_eq [BEq β] [LawfulBEq β] {key : α → β} {items : List α}
    (h : (items.map key).Nodup) {item : α} (hm : item ∈ items) : items.filter (key · == key item) = [item] := by
  induction items with
  | nil => simp at hm
  | cons first rest ih =>
    obtain ⟨hf, hr⟩ := List.nodup_cons.1 h
    rcases List.mem_cons.1 hm with rfl | hm
    · have hnone : rest.filter (key · == key item) = [] :=
        List.filter_eq_nil_iff.2 fun other ho heq => hf (by simpa using ⟨other, ho, by simpa using heq⟩)
      rw [List.filter_cons_of_pos (by simp), hnone]
    · have hne : key first ≠ key item := fun heq => hf (heq ▸ List.mem_map_of_mem hm)
      rw [List.filter_cons_of_neg (by simpa using hne), ih hr hm]

theorem lookup_map_key [BEq β] [LawfulBEq β] {key : α → β} {value : α → γ} {items : List α}
    (h : (items.map key).Nodup) {item : α} (hm : item ∈ items) :
    (items.map fun item => (key item, value item)).lookup (key item) = some (value item) := by
  induction items with
  | nil => simp at hm
  | cons first rest ih =>
    obtain ⟨hf, hr⟩ := List.nodup_cons.1 h
    rw [List.map_cons, List.lookup_cons]
    rcases List.mem_cons.1 hm with rfl | hm
    · rw [beq_self_eq_true]
    · have hne : key item ≠ key first := fun heq => hf (heq ▸ List.mem_map_of_mem hm)
      rw [beq_eq_false_iff_ne.2 hne, ih hr hm]

theorem flatMap_filter_perm [BEq β] [LawfulBEq β] {key : α → β} {keys : List β} (hn : keys.Nodup)
    {items : List α} (h : ∀ item ∈ items, key item ∈ keys) :
    (keys.flatMap fun value => items.filter (key · == value)).Perm items := by
  induction keys generalizing items with
  | nil => simpa [List.eq_nil_iff_forall_not_mem] using h
  | cons value rest ih =>
    obtain ⟨hv, hr⟩ := List.nodup_cons.1 hn
    have hrest : (rest.flatMap fun other => items.filter (key · == other)) =
        rest.flatMap fun other =>
          (items.filter fun item => !(key item == value)).filter (key · == other) := by
      refine List.flatMap_congr fun other ho => ?_
      rw [List.filter_filter]
      refine List.filter_congr fun item _ => ?_
      by_cases ht : key item = other
      · have hne : key item ≠ value := fun heq => hv (heq ▸ ht ▸ ho)
        simp [ht, ht ▸ hne]
      · simp [ht]
    have hothers : ∀ item ∈ items.filter fun item => !(key item == value), key item ∈ rest := by
      intro item hm
      obtain ⟨hi, hk⟩ := List.mem_filter.1 hm
      exact (List.mem_cons.1 (h item hi)).resolve_left (by simpa using hk)
    rw [List.flatMap_cons, hrest]
    exact ((ih hr hothers).append_left _).trans (List.filter_append_perm _ _)

/-- What comes from the kept items, where all that comes from an item is kept or nothing of it. -/
theorem filter_flatMap_eq {f : α → List β} {test : β → Bool} {keep : α → Bool} {items : List α}
    (h : ∀ item ∈ items, ∀ other ∈ f item, test other = keep item) :
    (items.flatMap f).filter test = (items.filter keep).flatMap f := by
  induction items with
  | nil => rfl
  | cons item rest ih =>
    obtain ⟨hi, hr⟩ := List.forall_mem_cons.1 h
    rw [List.flatMap_cons, List.filter_append, ih hr]
    cases hk : keep item with
    | true =>
      have hall : (f item).filter test = f item :=
        List.filter_eq_self.2 fun other ho => (hi other ho).trans hk
      rw [hall, List.filter_cons_of_pos hk, List.flatMap_cons]
    | false =>
      have hnone : (f item).filter test = [] :=
        List.filter_eq_nil_iff.2 fun other ho => by simp [hi other ho, hk]
      rw [hnone, List.filter_cons_of_neg (by simp [hk]), List.nil_append]

theorem exists_of_forall₂ {related : α → β → Prop} {items : List α} {others : List β}
    (h : List.Forall₂ related items others) {other : β} (hm : other ∈ others) :
    ∃ item ∈ items, related item other := by
  induction h with
  | nil => simp at hm
  | @cons item _ _ _ hr _ ih =>
    rcases List.mem_cons.1 hm with rfl | hm
    · exact ⟨item, List.mem_cons_self, hr⟩
    · obtain ⟨found, hf, hr⟩ := ih hm
      exact ⟨found, List.mem_cons_of_mem _ hf, hr⟩

theorem exists_concat_of_forall₂ {related : α → β → Prop} {items : List α} {others : List β} {last : β}
    (h : List.Forall₂ related items (others ++ [last])) :
    ∃ front item, items = front ++ [item] ∧ List.Forall₂ related front others ∧ related item last := by
  obtain ⟨item, rest, hitem, hrest, hdrop⟩ :=
    List.forall₂_cons_right_iff.1 (List.forall₂_drop_append items others [last] h)
  obtain rfl := List.forall₂_nil_right_iff.1 hrest
  exact ⟨_, item, by rw [← hdrop, List.take_append_drop], List.forall₂_take_append items others [last] h,
    hitem⟩

theorem forall₂_of_map_eq {f : α → γ} {g : β → γ} {items : List α} {others : List β}
    (h : items.map f = others.map g) :
    List.Forall₂ (fun item other => item ∈ items ∧ other ∈ others ∧ f item = g other) items others := by
  have hmaps : List.Forall₂ (· = ·) (items.map f) (others.map g) := List.forall₂_eq_eq_eq ▸ h
  have heq : List.Forall₂ (fun item other => f item = g other) items others :=
    List.forall₂_map_left_iff.1 (List.forall₂_map_right_iff.1 hmaps)
  exact List.forall₂_iff_zip.2 ⟨heq.length_eq, fun hm =>
    ⟨(List.of_mem_zip hm).1, (List.of_mem_zip hm).2, List.forall₂_zip heq hm⟩⟩

theorem forall₂_filterMap {f : α → Option β} {related : α → β → Prop} {items : List α}
    (h : ∀ item ∈ items, ∃ result, f item = some result ∧ related item result) :
    List.Forall₂ related items (items.filterMap f) := by
  induction items with
  | nil => exact .nil
  | cons item rest ih =>
    obtain ⟨⟨result, hf, hr⟩, hrest⟩ := List.forall_mem_cons.1 h
    rw [List.filterMap_cons_some hf]
    exact .cons hr (ih hrest)

end HomeHub
