import HomeHub.Proofs.Numbering

/-!
# The names in a scope

`eq_dedupe_iff`: which names the items of a scope get, whatever their identifiers are. The rule looks at
places and at the sorted source keys and not at ranks, and leaves no choice. The names it gives are
distinct unless a numbered one meets a single identifier, and only names that are not distinct change
when they are made again.
-/

namespace HomeHub.Naming

variable {items : List Named} {names others : List String} {item first second : Named}
  {identifier : String} {i j place : Nat}

-- ---------------------------------------------------------------------------
-- The rule
-- ---------------------------------------------------------------------------

structure AreNamesOf (items : List Named) (names : List String) : Prop where
  length : names.length = items.length
  single {place : Nat} {item : Named} (hi : items[place]? = some item)
    (hs : shares items item.identifier = 1) : names[place]? = some item.identifier
  shared {identifier : String} (hs : 2 ≤ shares items identifier) :
    ((inOrder items identifier).map fun (_, place) => names[place]?) =
      (List.range (shares items identifier)).map fun n => some (numbered identifier n)

theorem areNamesOf_dedupe (items : List Named) : AreNamesOf items (dedupe items) where
  length := length_dedupe items
  single := getElem?_dedupe_single
  shared {identifier} hs := by
    have hnames : ∀ placed ∈ inOrder items identifier, (dedupe items)[placed.2]? =
        some (numbered identifier (rank (sharing items identifier) placed.1 placed.2)) := by
      rintro ⟨item, place⟩ hm
      obtain ⟨hi, rfl⟩ := mem_inOrder.1 hm
      exact getElem?_dedupe_shared hi hs
    rw [← ranks_inOrder, List.map_map]
    exact List.map_congr_left hnames

theorem AreNamesOf.unique (h : AreNamesOf items names) (ho : AreNamesOf items others) :
    names = others := by
  refine List.ext_getElem? fun place => ?_
  cases hi : items[place]? with
  | none =>
    have hle : items.length ≤ place := List.getElem?_eq_none_iff.1 hi
    rw [List.getElem?_eq_none (h.length ▸ hle), List.getElem?_eq_none (ho.length ▸ hle)]
  | some item =>
    rcases Nat.eq_or_lt_of_le (one_le_shares hi) with hs | hs
    · rw [h.single hi hs.symm, ho.single hi hs.symm]
    · have heq := (h.shared hs).trans (ho.shared hs).symm
      exact List.map_inj_left.1 heq (item, place) (mem_inOrder.2 ⟨hi, rfl⟩)

-- ---------------------------------------------------------------------------
-- Names that are made again
-- ---------------------------------------------------------------------------

theorem numbered_ne_self (identifier : String) (n : Nat) : numbered identifier n ≠ identifier := by
  intro h
  have hl := congrArg (List.length ∘ String.toList) h
  simp [toList_numbered] at hl

theorem areNamesOf_map_identifier (h : (items.map Named.identifier).Nodup) :
    AreNamesOf items (items.map Named.identifier) where
  length := List.length_map _
  single hi _ := by rw [List.getElem?_map, hi, Option.map_some]
  shared {identifier} hs := absurd (List.nodup_iff_count_le_one.1 h identifier) (Nat.not_le.2 hs)

theorem dedupe_eq_map_identifier (items : List Named) :
    dedupe items = items.map Named.identifier ↔ (items.map Named.identifier).Nodup := by
  constructor
  · intro h
    refine List.nodup_iff_count_le_one.2 fun identifier => Nat.not_lt.1 fun hs => ?_
    obtain ⟨place, item, hi, rfl, hname⟩ := exists_numbered hs (Nat.zero_lt_of_lt hs)
    rw [h, List.getElem?_map, hi, Option.map_some] at hname
    exact numbered_ne_self _ _ (Option.some.inj hname).symm
  · intro h
    exact (areNamesOf_dedupe items).unique (areNamesOf_map_identifier h)

/-- The items under other names, each with the source key it had. -/
def renamed (items : List Named) (names : List String) : List Named :=
  items.zipWith (fun item name => ⟨name, item.sourceKey⟩) names

theorem map_identifier_renamed (h : names.length = items.length) :
    (renamed items names).map Named.identifier = names := by
  rw [renamed, List.map_zipWith, ← List.map_uncurry_zip_eq_zipWith]
  exact List.map_snd_zip (Nat.le_of_eq h)

theorem dedupe_renamed_eq_iff (h : names.length = items.length) :
    dedupe (renamed items names) = names ↔ names.Nodup := by
  have hi := dedupe_eq_map_identifier (renamed items names)
  rwa [map_identifier_renamed h] at hi

-- ---------------------------------------------------------------------------
-- The scope
-- ---------------------------------------------------------------------------

theorem getElem?_dedupe_ne (hi : items[i]? = some first) (hj : items[j]? = some second)
    (hf : 2 ≤ shares items first.identifier) (hs : 2 ≤ shares items second.identifier)
    (hne : first.identifier ≠ second.identifier) : (dedupe items)[i]? ≠ (dedupe items)[j]? := by
  rw [getElem?_dedupe_shared hi hf, getElem?_dedupe_shared hj hs]
  exact fun heq => hne (numbered_inj (Option.some.inj heq)).1

structure TellApart (items : List Named) (names : List String) : Prop
    extends AreNamesOf items names where
  numbers {i j : Nat} {first second : Named} (hi : items[i]? = some first)
    (hj : items[j]? = some second) (hf : 2 ≤ shares items first.identifier)
    (hs : 2 ≤ shares items second.identifier) (hne : first.identifier ≠ second.identifier) :
    names[i]? ≠ names[j]?
  distinct : names.Nodup ↔ ∀ shared n, ¬ IsMet (items.map Named.identifier) shared n
  settled : dedupe (renamed items names) = names ↔ names.Nodup

theorem eq_dedupe_iff (items : List Named) (names : List String) :
    names = dedupe items ↔ TellApart items names := by
  constructor
  · rintro rfl
    exact { areNamesOf_dedupe items with
      numbers := getElem?_dedupe_ne
      distinct := nodup_dedupe
      settled := dedupe_renamed_eq_iff (length_dedupe items) }
  · intro h
    exact h.toAreNamesOf.unique (areNamesOf_dedupe items)

/-- Three items with one identifier, two of them with one source key, and a single one whose identifier
looks like a number of theirs. -/
example : dedupe [⟨"X", "b"⟩, ⟨"X", "a"⟩, ⟨"X", "a"⟩, ⟨"X_0", "c"⟩] = ["X_2", "X_0", "X_1", "X_0"] := by
  decide +kernel

end HomeHub.Naming
