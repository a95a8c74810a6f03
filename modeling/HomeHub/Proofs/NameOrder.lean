import HomeHub.Proofs.Lists
import HomeHub.Proofs.ServiceGroups
import Mathlib.Data.List.Nodup

/-!
# Names and the order of keys

Where keys are distinct, the identifier of a key depends on the set of all keys and not on their
order. What is looked up by a name does not depend on the order of the items either.
-/

namespace HomeHub

namespace Naming

/-- How an item is named among others: with the number of those in front of it, if it shares its
identifier. -/
def nameAmong (items : List Named) (item : Named) : String :=
  let sharing := items.filter fun other => other.identifier == item.identifier
  if sharing.length < 2 then item.identifier
  else numbered item.identifier (sharing.countP fun other => other.sourceKey < item.sourceKey)

theorem nameAmong_eq_of_perm {items others : List Named} (h : items.Perm others) (item : Named) :
    nameAmong items item = nameAmong others item := by
  have hs := h.filter fun other => other.identifier == item.identifier
  simp only [nameAmong, hs.length_eq, hs.countP_eq]

theorem rank_eq_countP {items : List Named} (h : (items.map Named.sourceKey).Nodup)
    (test : Named → Bool) {item : Named} {position : Nat} (hm : (item, position) ∈ items.zipIdx) :
    rank (items.zipIdx.filter fun (other, _) => test other) item position =
      (items.filter test).countP fun other => other.sourceKey < item.sourceKey := by
  rw [← map_fst_filter_zipIdx test items, List.countP_map, rank]
  refine List.countP_congr fun (other, place) ho => ?_
  have ho := List.mem_zipIdx_iff_getElem?.1 (List.mem_filter.1 ho).1
  have hi := List.mem_zipIdx_iff_getElem?.1 hm
  simp only [Bool.or_eq_true, decide_eq_true_eq, Bool.and_eq_true, beq_iff_eq, Function.comp_apply,
    or_iff_left_iff_imp]
  rintro ⟨hk, hlt⟩
  -- two places with one key would be the same place
  have hlength := (List.getElem?_eq_some_iff.1 ho).1
  have heq : (items.map Named.sourceKey)[place]? = (items.map Named.sourceKey)[position]? := by
    simp [ho, hi, hk]
  exact absurd ((List.getElem?_inj (by simpa using hlength) h).1 heq) (Nat.ne_of_lt hlt)

theorem dedupe_eq_map {items : List Named} (h : (items.map Named.sourceKey).Nodup) :
    dedupe items = items.map (nameAmong items) := by
  have hplaced : items.map (nameAmong items) =
      items.zipIdx.map fun placed => nameAmong items placed.1 := by
    conv_lhs => rw [← List.zipIdx_map_fst 0 items, List.map_map]
    simp [Function.comp_def]
  rw [hplaced, dedupe]
  refine List.map_congr_left fun placed hm => ?_
  obtain ⟨item, position⟩ := placed
  have hshared := map_fst_filter_zipIdx (fun other => other.identifier == item.identifier) items
  have hrank := rank_eq_countP h (fun other => other.identifier == item.identifier) hm
  unfold nameAmong
  simp only [← hrank]
  rw [← hshared, List.length_map]

theorem canonicalNames_eq_of_perm {keys others : List String} (h : keys.Perm others)
    (hn : keys.Nodup) (mark : String) : canonicalNames keys mark = canonicalNames others mark := by
  let item (key : String) : Named := ⟨resolve key mark, key⟩
  have hkeys (list : List String) : (list.map item).map Named.sourceKey = list := by
    simp [item, Function.comp_def]
  have hcanonical {list : List String} (hl : list.Nodup) : canonicalNames list mark =
      Text.sortedByBoth Named.identifier Named.sourceKey
        (list.map fun key => ⟨nameAmong (list.map item) (item key), key⟩) := by
    simp only [canonicalNames]
    rw [dedupe_eq_map ((hkeys list).symm ▸ hl), List.zipWith_map_right, List.zipWith_self,
      List.map_map]
    rfl
  rw [hcanonical hn, hcanonical (h.nodup_iff.1 hn)]
  refine Text.sortedByBoth_eq_of_perm (.trans (.of_eq ?_) (h.map _)) ?_
  · exact List.map_congr_left fun key _ => by rw [nameAmong_eq_of_perm (h.map item)]
  · rintro ⟨_, _⟩ ⟨_, _⟩ rfl rfl
    rfl

end Naming

-- ---------------------------------------------------------------------------
-- Lookups by name
-- ---------------------------------------------------------------------------

theorem lastWhere?_eq_some_iff {name : α → String} {items : List α} (h : (items.map name).Nodup)
    {key : String} {item : α} :
    lastWhere? (name · == key) items = some item ↔ item ∈ items ∧ name item = key := by
  constructor
  · intro hl
    obtain ⟨hm, hk⟩ := lastWhere?_eq_some hl
    exact ⟨hm, eq_of_beq hk⟩
  · rintro ⟨hm, rfl⟩
    have hs : (lastWhere? (name · == name item) items).isSome = true :=
      isSome_lastWhere? hm (beq_self_eq_true _)
    obtain ⟨found, hf⟩ := Option.isSome_iff_exists.1 hs
    obtain ⟨hfm, hk⟩ := lastWhere?_eq_some hf
    rw [hf, List.inj_on_of_nodup_map h hfm hm (eq_of_beq hk)]

theorem lastWhere?_eq_of_perm {name : α → String} {items others : List α} (hp : items.Perm others)
    (h : (items.map name).Nodup) (key : String) :
    lastWhere? (name · == key) items = lastWhere? (name · == key) others := by
  refine Option.ext fun item => ?_
  rw [lastWhere?_eq_some_iff h, lastWhere?_eq_some_iff ((hp.map name).nodup_iff.1 h), hp.mem_iff]

theorem lastWhere?_map (f : α → β) (test : β → Bool) (items : List α) :
    lastWhere? test (items.map f) = (lastWhere? (test <| f ·) items).map f := by
  simp only [lastWhere?, ← List.map_reverse, List.find?_map, Function.comp_def]

end HomeHub
