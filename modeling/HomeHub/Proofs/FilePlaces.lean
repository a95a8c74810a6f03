import HomeHub.FileTree
import HomeHub.Proofs.Success
import Mathlib.Data.List.DropRight

/-!
# Places of files

A path names one place, whatever tree it is read in, and leads there through others. Making the
directories above a file makes those that are missing on this way and changes nothing else. What has
been written to a path is read from it.
-/

namespace HomeHub

-- ---------------------------------------------------------------------------
-- The pieces of a path
-- ---------------------------------------------------------------------------

namespace Path

theorem pieceChars_of_not_mem {chars : List Char} (h : '/' ∉ chars) : pieceChars chars = [chars] := by
  induction chars with
  | nil => rfl
  | cons c rest ih =>
    obtain ⟨hc, hr⟩ := not_or.1 (mt List.mem_cons.2 h)
    rw [pieceChars, if_neg (Ne.symm hc), ih hr]

theorem pieceChars_append {front : List Char} (h : '/' ∉ front) (rest : List Char) :
    pieceChars (front ++ '/' :: rest) = front :: pieceChars rest := by
  induction front with
  | nil => rfl
  | cons c front ih =>
    obtain ⟨hc, hf⟩ := not_or.1 (mt List.mem_cons.2 h)
    rw [List.cons_append, pieceChars, if_neg (Ne.symm hc), ih hf]

theorem pieceChars_ne_nil (chars : List Char) : pieceChars chars ≠ [] := by
  cases chars with
  | nil => simp [pieceChars]
  | cons c rest =>
    unfold pieceChars
    split
    · simp
    · split <;> simp

theorem not_mem_of_mem_pieceChars {chars piece : List Char} (h : piece ∈ pieceChars chars) :
    '/' ∉ piece := by
  induction chars generalizing piece with
  | nil => simp_all [pieceChars]
  | cons c rest ih =>
    unfold pieceChars at h
    split at h
    · rcases List.mem_cons.1 h with rfl | h
      · exact List.not_mem_nil
      · exact ih h
    · rename_i hc
      split at h
      · rename_i hn
        exact absurd hn (pieceChars_ne_nil rest)
      · rename_i first others heq
        rcases List.mem_cons.1 h with rfl | h
        · exact List.not_mem_cons_of_ne_of_not_mem (Ne.symm hc) (ih (heq ▸ List.mem_cons_self))
        · exact ih (heq ▸ List.mem_cons_of_mem _ h)

theorem pieceChars_intercalate {first : List Char} {others : List (List Char)}
    (h : ∀ piece ∈ first :: others, '/' ∉ piece) :
    pieceChars (['/'].intercalate (first :: others)) = first :: others := by
  induction others generalizing first with
  | nil => simpa using pieceChars_of_not_mem (h first List.mem_cons_self)
  | cons second others ih =>
    obtain ⟨hfirst, hrest⟩ := List.forall_mem_cons.1 h
    rw [List.intercalate_cons_cons, List.append_assoc, List.singleton_append,
      pieceChars_append hfirst, ih hrest]

theorem pieces_intercalate {first : String} {others : List String}
    (h : ∀ piece ∈ first :: others, '/' ∉ piece.toList) :
    pieces ("/".intercalate (first :: others)) = first :: others := by
  have hchars : ∀ piece ∈ first.toList :: others.map String.toList, '/' ∉ piece := by
    intro piece hp
    obtain ⟨text, ht, rfl⟩ := List.mem_map.1 (List.map_cons.symm ▸ hp)
    exact h text ht
  have hslash : "/".toList = ['/'] := rfl
  rw [pieces, String.toList_intercalate, List.map_cons, hslash, pieceChars_intercalate hchars]
  simp [Function.comp_def]

theorem not_mem_of_mem_pieces {path piece : String} (h : piece ∈ pieces path) : '/' ∉ piece.toList := by
  obtain ⟨chars, hc, rfl⟩ := List.mem_map.1 h
  simpa using not_mem_of_mem_pieceChars hc

-- ---------------------------------------------------------------------------
-- The steps of a path
-- ---------------------------------------------------------------------------

theorem prefix_trimmed (pieces : List String) : trimmed pieces <+: pieces :=
  List.rdropWhile_prefix _ _

theorem filter_trimmed (pieces : List String) :
    (trimmed pieces).filter (!isIdle ·) = pieces.filter (!isIdle ·) := by
  have hidle : (pieces.reverse.takeWhile isIdle).filter (!isIdle ·) = [] :=
    List.filter_eq_nil_iff.2 fun piece hp => by simp [List.mem_takeWhile_imp hp]
  have hsplit := congrArg (List.filter (!isIdle ·))
    (List.takeWhile_append_dropWhile (p := isIdle) (l := pieces.reverse))
  rw [List.filter_append, hidle, List.nil_append] at hsplit
  rw [trimmed, List.filter_reverse, hsplit, List.filter_reverse, List.reverse_reverse]

theorem exists_trimmed_eq {pieces : List String} (h : trimmed pieces ≠ []) :
    ∃ front last, trimmed pieces = front ++ [last] ∧ isIdle last = false :=
  ⟨_, _, (List.dropLast_concat_getLast h).symm,
    Bool.not_eq_true _ ▸ List.rdropWhile_last_not isIdle pieces h⟩

theorem steps_of_pieces_eq_cons {path first : String} {rest : List String}
    (h : pieces path = first :: rest) :
    steps path = [first].filter (!isIdle ·) ++ (trimmed rest).filter (!isIdle ·) := by
  rw [steps, h, filter_trimmed, ← List.filter_append, List.singleton_append]

theorem steps_intercalate {first : String} {others : List String}
    (h : ∀ piece ∈ first :: others, '/' ∉ piece.toList) :
    steps ("/".intercalate (first :: others)) = (first :: others).filter (!isIdle ·) := by
  rw [steps, pieces_intercalate h]

theorem steps_of_isIdle {path : String} (h : isIdle path = true) : steps path = [] := by
  rcases (by simpa [isIdle] using h : path = "" ∨ path = ".") with rfl | rfl <;> rfl

theorem steps_of_parent?_eq_some {path parent : String} (h : parent? path = some parent) :
    steps parent = (steps path).dropLast := by
  unfold parent? at h
  split at h
  · cases h
  · rename_i first rest hpieces
    have plain : ∀ piece ∈ first :: rest, '/' ∉ piece.toList := fun piece hp =>
      not_mem_of_mem_pieces (hpieces ▸ hp)
    have alone : steps first = [first].filter (!isIdle ·) :=
      steps_intercalate (List.forall_mem_singleton.2 (plain first List.mem_cons_self))
    rw [steps_of_pieces_eq_cons hpieces]
    split at h
    · -- no step or one, and a parent without any
      rename_i hrest
      obtain rfl : parent = "" := by
        split at h
        · cases h
        · exact (Option.some.inj h).symm
      rw [hrest, steps_of_isIdle rfl]
      cases hf : isIdle first <;> simp [hf]
    · rename_i hrest
      obtain ⟨front, last, hlast, hidle⟩ := exists_trimmed_eq hrest
      have hkept : [last].filter (!isIdle ·) = [last] := by simp [hidle]
      rw [hlast, List.dropLast_concat] at h
      rw [hlast, List.filter_append, ← List.append_assoc, hkept, List.dropLast_concat,
        ← filter_trimmed front]
      split at h
      · rename_i hnone
        obtain rfl := Option.some.inj h
        rw [hnone, List.filter_nil, List.append_nil]
        split
        · rename_i hf
          subst hf
          rfl
        · exact alone
      · obtain rfl := Option.some.inj h
        have hsub : trimmed front ⊆ rest := List.Subset.trans (prefix_trimmed front).subset
          (List.Subset.trans (List.subset_append_left _ _) (hlast ▸ (prefix_trimmed rest).subset))
        have hothers : ∀ piece ∈ first :: trimmed front, '/' ∉ piece.toList :=
          List.forall_mem_cons.2 ⟨plain first List.mem_cons_self, fun piece hp =>
            plain piece (List.mem_cons_of_mem _ (hsub hp))⟩
        rw [steps_intercalate hothers, ← List.filter_append, List.singleton_append]

theorem steps_of_named_eq_concat {path last : String} {front : List String}
    (h : (pieces path).filter (· ≠ "") = front ++ [last]) (hdot : last ≠ ".") :
    steps path = front.filter (!isIdle ·) ++ [last] := by
  have hnamed : steps path = ((pieces path).filter (· ≠ "")).filter (!isIdle ·) := by
    rw [List.filter_filter]
    exact List.filter_congr fun piece _ => by simp [isIdle]; tauto
  have hempty : last ≠ "" := by
    have hm : last ∈ (pieces path).filter (· ≠ "") := h ▸ List.mem_append_right _ List.mem_cons_self
    simpa using (List.mem_filter.1 hm).2
  have hlast : [last].filter (!isIdle ·) = [last] := by simp [isIdle, hempty, hdot]
  rw [hnamed, h, List.filter_append, hlast]

end Path

-- ---------------------------------------------------------------------------
-- The places of a path
-- ---------------------------------------------------------------------------

namespace Location

def step (location : Location) (name : String) : Location :=
  if name = ".." then location.parent else location.child name

def trail (location : Location) : List String → List Location
  | [] => []
  | name :: rest => location.step name :: (location.step name).trail rest

theorem step_child {name : String} (h : name ≠ "..") (location : Location) :
    location.step name = location.child name := if_neg h

end Location

namespace Path

/-- The place that a path leads to, whether anything is there or not. -/
def place (path : String) : Location := (steps path).foldl Location.step .working

def way (path : String) : List Location := Location.working.trail (steps path).dropLast

end Path

namespace FileTree

theorem look_eq_ok {tree : FileTree} {location : Location} {name : String}
    {found? : Option FileEntry} : tree.look location name = .ok found? ↔
      ¬ Path.maximalNameBytes < name.utf8ByteSize ∧ tree.get? (location.child name) = found? := by
  unfold look
  split <;> simp_all

theorem enter_cons_of_isIdle {piece : String} (h : Path.isIdle piece = true) (tree : FileTree)
    (location : Location) (rest : List String) :
    tree.enter location (piece :: rest) = tree.enter location rest := if_pos h

theorem enter_cons_eq_ok {tree : FileTree} {location place : Location} {piece : String}
    {rest : List String} (h : Path.isIdle piece = false) :
    tree.enter location (piece :: rest) = .ok place ↔
      (piece ≠ ".." → tree.look location piece = .ok (some .directory)) ∧
        tree.enter (location.step piece) rest = .ok place := by
  conv_lhs => unfold enter
  rw [if_neg (by simp [h])]
  by_cases hup : piece = ".."
  · simp [hup, Location.step]
  · rw [if_neg hup, Location.step_child hup]
    split <;> simp_all

theorem eq_of_enter_eq_ok {tree : FileTree} {location place : Location} {pieces : List String}
    (h : tree.enter location pieces = .ok place) :
    place = (pieces.filter (!Path.isIdle ·)).foldl Location.step location := by
  induction pieces generalizing location with
  | nil => exact (Except.ok.inj h).symm
  | cons piece rest ih =>
    cases hidle : Path.isIdle piece with
    | true =>
      rw [enter_cons_of_isIdle hidle] at h
      rw [List.filter_cons_of_neg (by simp [hidle]), ih h]
    | false =>
      rw [List.filter_cons_of_pos (by simp [hidle]), List.foldl_cons,
        ih ((enter_cons_eq_ok hidle).1 h).2]

section
variable {tree other : FileTree}
  (hd : ∀ location, tree.get? location = some .directory → other.get? location = some .directory)
include hd

/-- Directories are all that is needed to go anywhere. -/
theorem enter_mono {location place : Location} {pieces : List String}
    (h : tree.enter location pieces = .ok place) : other.enter location pieces = .ok place := by
  induction pieces generalizing location with
  | nil => exact h
  | cons piece rest ih =>
    cases hidle : Path.isIdle piece with
    | true =>
      rw [enter_cons_of_isIdle hidle] at h ⊢
      exact ih h
    | false =>
      obtain ⟨hlook, hrest⟩ := (enter_cons_eq_ok hidle).1 h
      refine (enter_cons_eq_ok hidle).2 ⟨fun hup => ?_, ih hrest⟩
      obtain ⟨hlength, hget⟩ := look_eq_ok.1 (hlook hup)
      exact look_eq_ok.2 ⟨hlength, hd _ hget⟩

theorem destination_mono {path : String} {destination : Destination}
    (h : tree.destination path = .ok destination) : other.destination path = .ok destination := by
  unfold FileTree.destination at h ⊢
  split at h
  · cases h
  · obtain ⟨location, he, h⟩ := bind_eq_ok.1 h
    exact bind_eq_ok.2 ⟨location, enter_mono hd he, h⟩

end

theorem child_of_destination_eq_entry {tree : FileTree} {path name : String} {location : Location}
    {slash : Bool} (h : tree.destination path = .ok (.entry location name slash)) :
    location.child name = Path.place path := by
  unfold FileTree.destination at h
  split at h
  · cases h
  · obtain ⟨entered, he, h⟩ := bind_eq_ok.1 h
    split at h
    · split at h <;> cases h
    · rename_i last hlast
      split at h
      · cases h
      · rename_i hdot
        split at h
        · cases h
        · rename_i hup
          cases h
          obtain ⟨front, hnames⟩ := List.getLast?_eq_some_iff.1 hlast
          have hsteps := Path.steps_of_named_eq_concat hnames hdot
          rw [eq_of_enter_eq_ok he, hnames, List.dropLast_concat, Path.place, hsteps, List.foldl_concat,
            Location.step_child hup]

-- ---------------------------------------------------------------------------
-- Making directories
-- ---------------------------------------------------------------------------

/-- Nothing differs but some of the places, which were missing and are directories now. -/
def AddsDirectories (tree left : FileTree) (places : List Location) : Prop :=
  ∀ location, left.get? location = tree.get? location ∨
    location ∈ places ∧ tree.get? location = none ∧ left.get? location = some .directory

theorem AddsDirectories.refl (tree : FileTree) (places : List Location) :
    tree.AddsDirectories tree places := fun _ => .inl rfl

theorem AddsDirectories.mono {tree left : FileTree} {places others : List Location}
    (h : tree.AddsDirectories left places) (hs : places ⊆ others) :
    tree.AddsDirectories left others := fun location =>
  (h location).imp_right fun ⟨hm, hn, hd⟩ => ⟨hs hm, hn, hd⟩

theorem AddsDirectories.trans {tree middle left : FileTree} {places others : List Location}
    (h : tree.AddsDirectories middle places) (h' : middle.AddsDirectories left others) :
    tree.AddsDirectories left (places ++ others) := by
  intro location
  rcases h location with heq | ⟨hm, hn, hd⟩ <;> rcases h' location with heq' | ⟨hm', hn', hd'⟩
  · exact .inl (heq'.trans heq)
  · exact .inr ⟨List.mem_append_right _ hm', heq ▸ hn', hd'⟩
  · exact .inr ⟨List.mem_append_left _ hm, hn, heq'.trans hd⟩
  · rw [hn'] at hd
    cases hd

theorem addsDirectories_set {tree : FileTree} {location : Location}
    (h : tree.get? location = none) :
    tree.AddsDirectories (tree.set location .directory) [location] := by
  intro other
  rw [get?_set]
  split
  · rename_i heq
    exact .inr ⟨List.mem_singleton.2 heq, heq ▸ h, rfl⟩
  · exact .inl rfl

theorem addsDirectories_descend (tree : FileTree) (location : Location) (begun : Bool)
    (names : List String) :
    tree.AddsDirectories (tree.descend location begun names).2 (location.trail names) := by
  induction names generalizing tree location begun with
  | nil => exact .refl _ _
  | cons name rest ih =>
    have hrest {middle : FileTree} {flag : Bool} : middle.AddsDirectories
        (middle.descend (location.step name) flag rest).2 (location.trail (name :: rest)) :=
      (ih middle _ flag).mono (List.subset_cons_self _ _)
    unfold descend
    by_cases hup : name = ".."
    · rw [if_pos hup]
      rw [Location.step, if_pos hup] at hrest
      exact hrest
    · rw [if_neg hup]
      rw [Location.step_child hup] at hrest
      split
      · exact .refl _ _
      · exact hrest
      · exact .refl _ _
      · rename_i hlook
        have hset := addsDirectories_set (look_eq_ok.1 hlook).2
        rw [Location.trail, Location.step_child hup]
        exact hset.trans (ih _ _ _)

theorem addsDirectories_createDirectories (tree : FileTree) (path : String) :
    tree.AddsDirectories (tree.createDirectories path).2
      (Location.working.trail (Path.steps path)) := by
  unfold createDirectories
  split
  · exact .refl _ _
  · exact addsDirectories_descend _ _ _ _

-- ---------------------------------------------------------------------------
-- Writing
-- ---------------------------------------------------------------------------

theorem write_eq_ok {tree written : FileTree} {path : String} {content : ByteArray} :
    tree.write path content = .ok written ↔ ∃ location name,
      tree.destination path = .ok (.entry location name false) ∧
      (∃ found?, tree.look location name = .ok found? ∧ found? ≠ some .directory) ∧
      written = tree.set (location.child name) (.file content) := by
  unfold write
  rw [bind_eq_ok]
  constructor
  · rintro ⟨destination, hd, h⟩
    split at h
    · cases h
    · rename_i location name slash
      split at h
      · cases h
      · rename_i hslash
        obtain rfl : slash = false := by simpa using hslash
        obtain ⟨found?, hlook, h⟩ := bind_eq_ok.1 h
        refine ⟨location, name, hd, ⟨found?, hlook, ?_⟩, ?_⟩
        · rintro rfl
          cases h
        · split at h
          · cases h
          · exact (Except.ok.inj h).symm
  · rintro ⟨location, name, hd, ⟨found?, hlook, hne⟩, rfl⟩
    refine ⟨_, hd, ?_⟩
    simp only [Bool.false_eq_true, if_false, bind_eq_ok]
    refine ⟨found?, hlook, ?_⟩
    split
    · exact absurd rfl hne
    · rfl

theorem read_write {tree written : FileTree} {path : String} {content : ByteArray}
    (h : tree.write path content = .ok written) : written.read path = .ok content := by
  obtain ⟨location, name, hd, ⟨found?, hlook, hne⟩, rfl⟩ := write_eq_ok.1 h
  obtain ⟨hlength, rfl⟩ := look_eq_ok.1 hlook
  have kept : ∀ other, tree.get? other = some .directory →
      (tree.set (location.child name) (.file content)).get? other = some .directory := by
    intro other ho
    rw [get?_set, if_neg, ho]
    rintro rfl
    exact hne ho
  have hfound : (tree.set (location.child name) (.file content)).look location name =
      .ok (some (.file content)) := look_eq_ok.2 ⟨hlength, by rw [get?_set, if_pos rfl]⟩
  unfold read
  rw [bind_eq_ok]
  exact ⟨_, destination_mono kept hd, bind_eq_ok.2 ⟨_, hfound, rfl⟩⟩

/-- A file has been written to a path: it stands at the place of the path, and nothing else differs
but directories that were missing on the way there. -/
structure IsWrittenTo (tree left : FileTree) (path : String) (content : ByteArray) : Prop where
  read : left.read path = .ok content
  file : left.get? (Path.place path) = some (.file content)
  others : ∀ location ≠ Path.place path, left.get? location = tree.get? location ∨
    location ∈ Path.way path ∧ tree.get? location = none ∧ left.get? location = some .directory

theorem isWrittenTo_of_write_eq_ok {tree prepared written : FileTree} {path : String}
    {content : ByteArray} (hp : tree.AddsDirectories prepared (Path.way path))
    (h : prepared.write path content = .ok written) : tree.IsWrittenTo written path content := by
  obtain ⟨location, name, hd, -, rfl⟩ := write_eq_ok.1 h
  have hplace := child_of_destination_eq_entry hd
  refine ⟨read_write h, ?_, fun other hne => ?_⟩
  · rw [get?_set, if_pos hplace.symm]
  · rw [get?_set, if_neg (hplace ▸ hne)]
    exact hp other

end FileTree

end HomeHub
