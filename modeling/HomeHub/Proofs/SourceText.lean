import HomeHub.Source.Printer
import Mathlib.Tactic.SplitIfs

/-!
# Text of generated source

What is printed as one line is read as one line again, whatever the texts of the hub are: comments are
cut at line feeds, and in string literals the characters of line ends are spelled. It takes pieces whose
names are words and whose literals stand where a quote opens one.
-/

namespace HomeHub.Source

def sourceLines (text : String) : List String :=
  (text.toList.splitOn '\n').map String.ofList

-- ---------------------------------------------------------------------------
-- Characters of line ends
-- ---------------------------------------------------------------------------

def IsLineEnd (c : Char) : Prop := c = '\n' ∨ c = '\r'

def Lacks (c : Char) (text : String) : Prop := c ∉ text.toList

section
variable {c : Char}

theorem lacks_append {first second : String} :
    Lacks c (first ++ second) ↔ Lacks c first ∧ Lacks c second := by
  simp [Lacks]

theorem lacks_join {texts : List String} :
    Lacks c (String.join texts) ↔ ∀ text ∈ texts, Lacks c text := by
  simp [Lacks, String.toList_join]

theorem Lacks.ofList {chars : List Char} (h : c ∉ chars) : Lacks c (String.ofList chars) := by
  rwa [Lacks, String.toList_ofList]

theorem lacks_indent (h : IsLineEnd c) (depth : Nat) : Lacks c (indent depth) := by
  refine .ofList fun hm => ?_
  obtain rfl := List.eq_of_mem_replicate hm
  rcases h with h | h <;> exact absurd h (by decide)

theorem IsPlain.lacks {text : String} (h : IsPlain text) (hc : IsLineEnd c) : Lacks c text := by
  intro hm
  rcases hc with rfl | rfl <;> exact h _ hm (by decide)

theorem notMem_hexDigits (h : IsLineEnd c) (n : Nat) : c ∉ Text.hexDigits n := by
  have hdigit (n : Nat) : Nat.digitChar n ≠ c := by
    rcases h with rfl | rfl <;> exact Nat.digitChar_ne _ rfl
  unfold Text.hexDigits
  induction n using Nat.strongRecOn with
  | ind n ih =>
    rw [Nat.toDigits_eq_if (by decide)]
    split
    · exact fun hm => hdigit _ (List.mem_singleton.1 hm).symm
    · rw [List.mem_append]
      rintro (hm | hm)
      · exact ih _ (Nat.div_lt_self (by omega) (by decide)) hm
      · exact hdigit _ (List.mem_singleton.1 hm).symm

theorem notMem_escapeChar (h : IsLineEnd c) (other : Char) : c ∉ Text.escapeChar other := by
  have hdigits := notMem_hexDigits h other.toNat
  unfold Text.escapeChar
  split_ifs with h0 ht hr hn
  case neg =>
    intro hm
    obtain rfl := List.mem_singleton.1 hm
    exact h.elim hn hr
  all_goals rcases h with rfl | rfl <;> simp [Text.escapeByNumber, hdigits]

theorem lacks_quoted (h : IsLineEnd c) (text : String) : Lacks c (Text.quoted text) := by
  have hquote : c ≠ '"' := by
    rcases h with rfl | rfl <;> decide
  refine .ofList ?_
  simp [Text.quotedChars, hquote, notMem_escapeChar h]

end

-- ---------------------------------------------------------------------------
-- Legible pieces
-- ---------------------------------------------------------------------------

def IsWord (text : String) : Prop :=
  ∀ c ∈ text.toList, c.isAlphanum = true ∨ c = '_' ∨ c = '#'

theorem IsWord.notMem {text : String} (h : IsWord text) {c : Char} (ha : c.isAlphanum = false)
    (hu : c ≠ '_') (hs : c ≠ '#') : c ∉ text.toList := by
  intro hm
  have hc := h c hm
  simp_all

theorem IsWord.lacks {text : String} (h : IsWord text) {c : Char} (hc : IsLineEnd c) :
    Lacks c text := by
  rcases hc with rfl | rfl <;> exact h.notMem (by decide) (by decide) (by decide)

namespace Fragment

def name? : Fragment → Option String
  | .name text => some text
  | _ => none

def literals (crates : Crates) : Fragment → List String
  | .literal text => [text]
  | .function path _ => [crates.domain ++ path]
  | _ => []

/-- A literal may stand behind a blank or a parenthesis. -/
def opens : Fragment → Bool
  | .fixed text _ => text.toList.getLast?.any fun c => c == ' ' || c == '('
  | .staticReference => true
  | _ => false

def isOpened (opens : Bool) : Fragment → Bool
  | .literal _ => opens
  | .function _ _ => opens
  | _ => true

end Fragment

def areOpened : Bool → List Fragment → Bool
  | _, [] => true
  | opens, fragment :: rest => fragment.isOpened opens && areOpened fragment.opens rest

namespace Piece

def names : Piece → List String
  | .code _ fragments => fragments.filterMap Fragment.name?
  | _ => []

def literals (crates : Crates) : Piece → List String
  | .code _ fragments => fragments.flatMap (Fragment.literals crates)
  | _ => []

def remarks : Piece → List String
  | .comment _ text => [text]
  | _ => []

/-- Anything but a doc comment. -/
def isCode : Piece → Bool
  | .comment _ _ => false
  | _ => true

def isOpened : Piece → Bool
  | .code depth fragments => areOpened (0 < depth) fragments
  | _ => true

/-- Names are words, and literals stand where a quote opens them. -/
structure IsLegible (piece : Piece) : Prop where
  worded : ∀ name ∈ piece.names, IsWord name
  opened : piece.isOpened = true

theorem forall_mem_names {depth : Nat} {fragments : List Fragment} {holds : String → Prop} :
    (∀ name ∈ (code depth fragments).names, holds name) ↔
      ∀ fragment ∈ fragments, ∀ name ∈ fragment.name?, holds name := by
  simp only [names, List.mem_filterMap, Option.mem_def]
  grind

end Piece

section
variable {crates : Crates} {c : Char}

def Crates.Lack (crates : Crates) (c : Char) : Prop := ∀ crate, Lacks c (crates.path crate)

theorem Crates.lack_standard (h : IsLineEnd c) : Crates.standard.Lack c := by
  intro crate
  cases crate <;> rcases h with rfl | rfl <;> exact .ofList (by decide)

theorem Fragment.lacks {fragment : Fragment} (h : ∀ name ∈ fragment.name?, IsWord name)
    (hc : IsLineEnd c) (hp : crates.Lack c) : Lacks c (fragment.text crates) := by
  cases fragment with
  | fixed text plain => exact plain.lacks hc
  | staticReference | elidedLifetime => rcases hc with rfl | rfl <;> exact .ofList (by decide)
  | name text => exact (h text rfl).lacks hc
  | item crate path plain => exact lacks_append.2 ⟨hp crate, plain.lacks hc⟩
  | literal text => exact lacks_quoted hc text
  | function path plain =>
    have hquote : Lacks c "\"" := by rcases hc with rfl | rfl <;> exact .ofList (by decide)
    have hdomain : Lacks c crates.domain := hp .domain
    simp only [Fragment.text, lacks_append, hquote, hdomain, plain.lacks hc, and_true]

theorem Piece.lacks_code {depth : Nat} {fragments : List Fragment}
    (h : ∀ name ∈ (Piece.code depth fragments).names, IsWord name) (hc : IsLineEnd c)
    (hp : crates.Lack c) : ∀ line ∈ (Piece.code depth fragments).lines crates, Lacks c line := by
  refine List.forall_mem_singleton.2 (lacks_append.2 ⟨lacks_indent hc depth, lacks_join.2 ?_⟩)
  exact List.forall_mem_map.2 fun fragment hm =>
    Fragment.lacks (Piece.forall_mem_names.1 h fragment hm) hc hp

theorem Piece.lacks_note {text : String} (plain : IsPlain text) (hc : IsLineEnd c) :
    ∀ line ∈ (Piece.note text plain).lines crates, Lacks c line := by
  refine List.forall_mem_singleton.2 (lacks_append.2 ⟨.ofList ?_, plain.lacks hc⟩)
  rcases hc with rfl | rfl <;> decide

theorem lacks_commentLine {depth : Nat} {text : String} (hc : IsLineEnd c) :
    Lacks c (commentLine depth text) ↔ Lacks c text := by
  have hmark : Lacks c "/// " := by rcases hc with rfl | rfl <;> exact .ofList (by decide)
  have hempty : Lacks c "///" := by rcases hc with rfl | rfl <;> exact .ofList (by decide)
  rw [commentLine, lacks_append, and_iff_right (lacks_indent hc depth)]
  split
  · rename_i he
    obtain rfl := String.isEmpty_iff.1 he
    exact iff_of_true hempty (.ofList (by simp))
  · rw [lacks_append, and_iff_right hmark]

theorem newline_notMem_trimEnd {text line : List Char} (h : line ∈ Text.lines text) :
    '\n' ∉ Text.trimEnd line := by
  intro hm
  rw [Text.trimEnd, List.mem_reverse] at hm
  exact Text.newline_not_mem_lines h (List.mem_reverse.1 ((List.dropWhile_sublist _).subset hm))

theorem lacks_newline_comment (depth : Nat) (text : String) :
    ∀ line ∈ (Piece.comment depth text).lines crates, Lacks '\n' line :=
  List.forall_mem_map.2 fun _ hl =>
    (lacks_commentLine (.inl rfl)).2 (.ofList (newline_notMem_trimEnd hl))

theorem Piece.IsLegible.lacks_newline {piece : Piece} (h : piece.IsLegible)
    (hp : crates.Lack '\n') : ∀ line ∈ piece.lines crates, Lacks '\n' line := by
  cases piece with
  | code depth fragments => exact Piece.lacks_code h.worded (.inl rfl) hp
  | note text plain => exact Piece.lacks_note plain (.inl rfl)
  | comment depth text => exact lacks_newline_comment depth text

-- ---------------------------------------------------------------------------
-- Lines of pieces
-- ---------------------------------------------------------------------------

theorem toList_textOf (crates : Crates) (pieces : List Piece) : (textOf crates pieces).toList =
    (pieces.flatMap (Piece.lines crates)).flatMap fun line => line.toList ++ ['\n'] := by
  simp [textOf, String.toList_join, List.flatMap_map]

theorem textOf_append (crates : Crates) (first second : List Piece) :
    textOf crates (first ++ second) = textOf crates first ++ textOf crates second :=
  String.ext (by simp [toList_textOf])

/-- A printed text is read as the lines it was put together from, and an empty one at its end. -/
theorem sourceLines_textOf {pieces : List Piece} (hp : crates.Lack '\n')
    (h : ∀ piece ∈ pieces, piece.IsLegible) :
    sourceLines (textOf crates pieces) = pieces.flatMap (Piece.lines crates) ++ [""] := by
  have hlines : ∀ line ∈ pieces.flatMap (Piece.lines crates), Lacks '\n' line :=
    List.forall_mem_flatMap.2 fun piece hm => (h piece hm).lacks_newline hp
  rw [sourceLines, toList_textOf]
  generalize pieces.flatMap (Piece.lines crates) = lines at hlines
  -- a line feed stands at the end of each line and nowhere else
  have hsplit : (lines.flatMap fun line => line.toList ++ ['\n']).splitOn '\n' =
      lines.map String.toList ++ [[]] := by
    induction lines with
    | nil => rfl
    | cons line rest ih =>
      obtain ⟨hl, hr⟩ := List.forall_mem_cons.1 hlines
      rw [List.flatMap_cons, List.append_assoc, List.singleton_append,
        List.splitOn_append_cons_self_of_not_mem hl, ih hr, List.map_cons, List.cons_append]
  rw [hsplit]
  simp

end

section
variable {α : Type} {items : List α} {printed : α → List Piece}

theorem forall_mem_separated {holds : Piece → Prop} (hb : holds Piece.blank)
    (h : ∀ item ∈ items, ∀ piece ∈ printed item, holds piece) :
    ∀ piece ∈ separated (items.map printed), holds piece := by
  induction items with
  | nil => simp [separated]
  | cons item rest ih =>
    obtain ⟨hitem, hrest⟩ := List.forall_mem_cons.1 h
    cases rest with
    | nil => simpa [separated] using hitem
    | cons next others =>
      exact List.forall_mem_append.2 ⟨hitem, List.forall_mem_cons.2 ⟨hb, ih hrest⟩⟩

end

end HomeHub.Source
