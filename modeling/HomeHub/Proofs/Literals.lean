import HomeHub.BusId
import HomeHub.Proofs.SourceText
import Mathlib.Algebra.Group.Nat.Defs
import Mathlib.Data.List.Forall2

/-!
# String literals of source text

Source text is read as far as its string literals go: where they start and end, and which text each of
them means. The reader refuses what generated source has no use for, such as block comments. Every text
that is quoted is read back, whatever its characters are.
-/

namespace HomeHub

-- ---------------------------------------------------------------------------
-- Readers that may refuse
-- ---------------------------------------------------------------------------

section
variable {α β : Type} {f : β → α → Option β} {before after : β} {item : α} {first rest : List α}

theorem foldlM_cons_of_eq_some (h : f before item = some after) :
    (item :: rest).foldlM f before = rest.foldlM f after := by
  rw [List.foldlM_cons, h, Option.bind_eq_bind, Option.bind_some]

theorem foldlM_append_of_eq_some (h : first.foldlM f before = some after) :
    (first ++ rest).foldlM f before = rest.foldlM f after := by
  rw [List.foldlM_append, h, Option.bind_eq_bind, Option.bind_some]

end

namespace Source

-- ---------------------------------------------------------------------------
-- What a literal means
-- ---------------------------------------------------------------------------

/-- Where a reader is inside a string literal. -/
inductive LiteralMode where
  | plain
  /-- Behind a backslash. -/
  | escape
  /-- Before the two digits of an ASCII character. -/
  | byte
  | byteDigit (first : Nat)
  /-- Before the braces around the number of a character. -/
  | brace
  | number (value count : Nat)
  /-- Behind a line end that is left out, with the blanks that follow. -/
  | fold
  deriving DecidableEq

def letterEscape? (c : Char) : Option Char :=
  if c = 'n' then some '\n'
  else if c = 'r' then some '\r'
  else if c = 't' then some '\t'
  else if c = '0' then some '\x00'
  else if c = '\\' ∨ c = '\'' ∨ c = '"' then some c
  else none

namespace LiteralMode

/-- A character that is not behind a backslash. A bare quote or carriage return is refused. -/
def readPlain (read : List Char) (c : Char) : Option (LiteralMode × List Char) :=
  if c = '"' ∨ c = '\r' then none
  else if c = '\\' then some (.escape, read)
  else some (.plain, read ++ [c])

def step : LiteralMode × List Char → Char → Option (LiteralMode × List Char)
  | (.plain, read), c => readPlain read c
  | (.escape, read), c =>
    if c = 'x' then some (.byte, read)
    else if c = 'u' then some (.brace, read)
    else if c = '\n' then some (.fold, read)
    else (letterEscape? c).map fun meant => (.plain, read ++ [meant])
  | (.byte, read), c =>
    if '0' ≤ c && c ≤ '7' then (BusId.digit? c).map fun first => (.byteDigit first, read) else none
  | (.byteDigit first, read), c =>
    (BusId.digit? c).map fun second => (.plain, read ++ [Char.ofNat (16 * first + second)])
  | (.brace, read), c => if c = '\x7b' then some (.number 0 0, read) else none
  | (.number value count, read), c =>
    if c = '\x7d' then
      if 0 < count ∧ value.isValidChar then some (.plain, read ++ [Char.ofNat value]) else none
    else if c = '_' then if 0 < count then some (.number value count, read) else none
    else if count < 6 then
      (BusId.digit? c).map fun digit => (.number (16 * value + digit) (count + 1), read)
    else none
  | (.fold, read), c =>
    if c = ' ' ∨ c = '\t' ∨ c = '\n' then some (.fold, read) else readPlain read c

end LiteralMode

def unescape? (body : List Char) : Option (List Char) :=
  (body.foldlM LiteralMode.step (.plain, [])).bind fun (mode, read) =>
    if mode = .plain ∨ mode = .fold then some read else none

/-- A literal in one line that means a text. -/
structure Spells (body : List Char) (text : String) : Prop where
  oneLine : '\n' ∉ body
  noReturn : '\r' ∉ body
  means : unescape? body = some text.toList

-- ---------------------------------------------------------------------------
-- Escaped characters
-- ---------------------------------------------------------------------------

theorem digit?_digitChar {n : Nat} (h : n < 16) : BusId.digit? (Nat.digitChar n) = some n := by
  have hall : ∀ n < 16, BusId.digit? (Nat.digitChar n) = some n := by decide
  exact hall n h

theorem step_number {value count n : Nat} (read : List Char) (hc : count < 6) (hn : n < 16) :
    LiteralMode.step (.number value count, read) (Nat.digitChar n) =
      some (.number (16 * value + n) (count + 1), read) := by
  have hbrace : Nat.digitChar n ≠ '\x7d' := Nat.digitChar_ne _ rfl
  have hline : Nat.digitChar n ≠ '_' := Nat.digitChar_ne _ rfl
  simp [LiteralMode.step, hbrace, hline, hc, digit?_digitChar hn]

theorem foldlM_hexDigits {digits n : Nat} (read : List Char) (hd : digits < 6)
    (hn : n < 16 ^ (digits + 1)) : ∃ count, 0 < count ∧ count ≤ digits + 1 ∧
      (Text.hexDigits n).foldlM LiteralMode.step (.number 0 0, read) =
        some (.number n count, read) := by
  have hone {n : Nat} (h : n < 16) : (Text.hexDigits n).foldlM LiteralMode.step
      (.number 0 0, read) = some (.number n 1, read) := by
    rw [Text.hexDigits, Nat.toDigits_eq_if (by decide), if_pos h,
      foldlM_cons_of_eq_some (step_number read (by decide) h)]
    simp
  induction digits generalizing n with
  | zero => exact ⟨1, by decide, by decide, hone hn⟩
  | succ digits ih =>
    by_cases h : n < 16
    · exact ⟨1, by decide, by omega, hone h⟩
    · obtain ⟨count, hpos, hle, hread⟩ := ih (n := n / 16) (by omega) (by omega)
      refine ⟨count + 1, by omega, by omega, ?_⟩
      rw [Text.hexDigits] at hread ⊢
      rw [Nat.toDigits_eq_if (by decide), if_neg h, foldlM_append_of_eq_some hread,
        foldlM_cons_of_eq_some (step_number read (by omega) (Nat.mod_lt n (by decide))),
        Nat.div_add_mod]
      rfl

theorem foldlM_escapeByNumber (read : List Char) (c : Char) :
    (Text.escapeByNumber c).foldlM LiteralMode.step (.plain, read) =
      some (.plain, read ++ [c]) := by
  have hvalid : c.toNat.isValidChar := c.valid
  have hbound : c.toNat < 16 ^ 6 := by
    rcases hvalid with h | ⟨-, h⟩ <;> exact Nat.lt_of_lt_of_le h (by decide)
  obtain ⟨count, hpos, -, hread⟩ := foldlM_hexDigits read (by decide) hbound
  have hopen : ['\\', 'u', '\x7b'].foldlM LiteralMode.step (.plain, read) =
      some (.number 0 0, read) := rfl
  have hclose : LiteralMode.step (.number c.toNat count, read) '\x7d' =
      some (.plain, read ++ [c]) := by
    simp [LiteralMode.step, hpos, hvalid]
  have hsplit : Text.escapeByNumber c =
      ['\\', 'u', '\x7b'] ++ (Text.hexDigits c.toNat ++ ['\x7d']) := rfl
  rw [hsplit, foldlM_append_of_eq_some hopen, foldlM_append_of_eq_some hread,
    foldlM_cons_of_eq_some hclose]
  rfl

theorem foldlM_escapeChar (read : List Char) (c : Char) :
    (Text.escapeChar c).foldlM LiteralMode.step (.plain, read) = some (.plain, read ++ [c]) := by
  unfold Text.escapeChar
  split_ifs with hnull ht hr hn hb hq hnumber
  iterate 6
    · subst c
      rfl
  · exact foldlM_escapeByNumber read c
  · simp [LiteralMode.step, LiteralMode.readPlain, hr, hb, hq]

theorem foldlM_escapes (read text : List Char) :
    (text.flatMap Text.escapeChar).foldlM LiteralMode.step (.plain, read) =
      some (.plain, read ++ text) := by
  induction text generalizing read with
  | nil => simp
  | cons c rest ih =>
    rw [List.flatMap_cons, foldlM_append_of_eq_some (foldlM_escapeChar read c), ih,
      List.append_assoc, List.singleton_append]

theorem spells_escapes (text : String) : Spells (text.toList.flatMap Text.escapeChar) text where
  oneLine := by simp [notMem_escapeChar (.inl rfl)]
  noReturn := by simp [notMem_escapeChar (.inr rfl)]
  means := by simp [unescape?, foldlM_escapes]

theorem foldlM_verbatim {text : List Char} (read : List Char) (h : ∀ c ∈ text, c ∉ ['"', '\r', '\\']) :
    text.foldlM LiteralMode.step (.plain, read) = some (.plain, read ++ text) := by
  induction text generalizing read with
  | nil => simp
  | cons c rest ih =>
    obtain ⟨hc, hrest⟩ := List.forall_mem_cons.1 h
    have hstep : LiteralMode.step (.plain, read) c = some (.plain, read ++ [c]) := by
      simp_all [LiteralMode.step, LiteralMode.readPlain]
    rw [foldlM_cons_of_eq_some hstep, ih _ hrest, List.append_assoc, List.singleton_append]

def IsVerbatim (text : String) : Prop := ∀ c ∈ text.toList, c ∉ ['"', '\r', '\\', '\n']

theorem IsVerbatim.ofList {chars : List Char} (h : chars.all (· ∉ ['"', '\r', '\\', '\n']) = true) :
    IsVerbatim (String.ofList chars) := by
  simpa [IsVerbatim, String.toList_ofList] using h

theorem IsVerbatim.append {first second : String} (hf : IsVerbatim first) (hs : IsVerbatim second) :
    IsVerbatim (first ++ second) := by
  rw [IsVerbatim, String.toList_append]
  exact List.forall_mem_append.2 ⟨hf, hs⟩

theorem spells_verbatim {text : String} (h : IsVerbatim text) : Spells text.toList text := by
  have hin {c : Char} (hc : c ∈ ['"', '\r', '\\', '\n']) : c ∉ text.toList := fun hm => h c hm hc
  refine ⟨hin (by decide), hin (by decide), ?_⟩
  rw [unescape?, foldlM_verbatim [] fun c hc => ?_]
  · simp
  · have := h c hc
    simp_all

-- ---------------------------------------------------------------------------
-- Where literals start and end
-- ---------------------------------------------------------------------------

inductive CodeMode where
  /-- In code, where `opens` tells whether a quote would open a literal. -/
  | code (opens : Bool)
  | slash
  | comment
  /-- Behind an apostrophe. -/
  | label (named : Bool)
  | literal (body : List Char)
  /-- Behind a backslash in a literal. -/
  | escape (body : List Char)

namespace CodeMode

/-- A character of code. A quote opens a literal behind a blank or a parenthesis; elsewhere it may
belong to the word before it. -/
def readCode (opens : Bool) (found : List (List Char)) (c : Char) :
    Option (CodeMode × List (List Char)) :=
  if c = '"' then if opens then some (.literal [], found) else none
  else if c = '\'' then some (.label false, found)
  else if c = '/' then some (.slash, found)
  else some (.code (c == ' ' || c == '('), found)

/-- Reads one more character of source text with the literals `found` so far. Block comments and
characters between apostrophes are refused. -/
def step : CodeMode × List (List Char) → Char → Option (CodeMode × List (List Char))
  | (.code opens, found), c => readCode opens found c
  | (.slash, found), c =>
    if c = '/' then some (.comment, found)
    else if c = '*' then none
    else readCode false found c
  | (.comment, found), c => some (if c = '\n' then .code false else .comment, found)
  | (.label named, found), c =>
    if c.isAlphanum || c == '_' then some (.label true, found)
    else if named && c != '\'' then readCode false found c
    else none
  | (.literal body, found), c =>
    if c = '"' then some (.code false, found ++ [body])
    else if c = '\\' then some (.escape (body ++ [c]), found)
    else some (.literal (body ++ [c]), found)
  | (.escape body, found), c => some (.literal (body ++ [c]), found)

end CodeMode

/-- The insides of the string literals of source text, in order. -/
def literals? (text : String) : Option (List (List Char)) :=
  (text.toList.foldlM CodeMode.step (.code false, [])).bind fun (mode, found) =>
    match mode with
    | .code _ | .slash | .comment => some found
    | _ => none

def LiteralMode.inCode (body : List Char) : LiteralMode → CodeMode
  | .escape => .escape body
  | _ => .literal body

/-- Only a quote and a backslash change the mode in a literal. -/
theorem step_literal {c : Char} (hq : c ≠ '"') (hb : c ≠ '\\') (body : List Char)
    (found : List (List Char)) :
    CodeMode.step (.literal body, found) c = some (.literal (body ++ [c]), found) := by
  simp [CodeMode.step, hq, hb]

theorem step_digit {c : Char} {digit : Nat} (h : BusId.digit? c = some digit) (body : List Char)
    (found : List (List Char)) :
    CodeMode.step (.literal body, found) c = some (.literal (body ++ [c]), found) := by
  refine step_literal ?_ ?_ body found <;> rintro rfl <;> simp [BusId.digit?] at h

section
variable {mode next : LiteralMode} {read later : List Char} {c : Char}

theorem readPlain_inCode (hm : mode ≠ .escape)
    (h : LiteralMode.readPlain read c = some (next, later)) (body : List Char)
    (found : List (List Char)) :
    CodeMode.step (mode.inCode body, found) c = some (next.inCode (body ++ [c]), found) := by
  have hcode : mode.inCode body = .literal body := by
    cases mode <;> first | rfl | exact absurd rfl hm
  rw [hcode]
  unfold LiteralMode.readPlain at h
  split_ifs at h with hq hb
  all_goals
    cases h
    simp_all [CodeMode.step, LiteralMode.inCode]

/-- What a reader of the literal takes for one character more does not end it. -/
theorem step_inCode (h : LiteralMode.step (mode, read) c = some (next, later)) (body : List Char)
    (found : List (List Char)) :
    CodeMode.step (mode.inCode body, found) c = some (next.inCode (body ++ [c]), found) := by
  cases mode with
  | plain => exact readPlain_inCode (by simp) h body found
  | escape =>
    -- whatever is escaped, the literal goes on behind it
    simp only [LiteralMode.step] at h
    split_ifs at h
    iterate 3
      · cases h
        rfl
    · obtain ⟨meant, -, heq⟩ := Option.map_eq_some_iff.1 h
      cases heq
      rfl
  | byte =>
    simp only [LiteralMode.step] at h
    split_ifs at h
    obtain ⟨first, hd, heq⟩ := Option.map_eq_some_iff.1 h
    cases heq
    exact step_digit hd body found
  | byteDigit first =>
    obtain ⟨second, hd, heq⟩ := Option.map_eq_some_iff.1 h
    cases heq
    exact step_digit hd body found
  | brace =>
    simp only [LiteralMode.step] at h
    split_ifs at h with hc
    cases h
    subst hc
    rfl
  | number value count =>
    simp only [LiteralMode.step] at h
    split_ifs at h with hc hvalid hline hpos hcount
    · cases h
      subst hc
      rfl
    · cases h
      subst hline
      rfl
    · obtain ⟨digit, hd, heq⟩ := Option.map_eq_some_iff.1 h
      cases heq
      exact step_digit hd body found
  | fold =>
    simp only [LiteralMode.step] at h
    split_ifs at h with hc
    · cases h
      rcases hc with rfl | rfl | rfl <;> rfl
    · exact readPlain_inCode (by simp) h body found

theorem foldlM_inCode {text : List Char}
    (h : text.foldlM LiteralMode.step (mode, read) = some (next, later)) (body : List Char)
    (found : List (List Char)) :
    text.foldlM CodeMode.step (mode.inCode body, found) =
      some (next.inCode (body ++ text), found) := by
  induction text generalizing mode read body with
  | nil =>
    cases h
    simp
  | cons c rest ih =>
    obtain ⟨⟨other, between⟩, hstep, hrest⟩ := Option.bind_eq_some_iff.1 h
    rw [foldlM_cons_of_eq_some (step_inCode hstep body found), ih hrest, List.append_assoc,
      List.singleton_append]

end

/-- A literal that means a text is read up to the quote behind it, and no further. -/
theorem foldlM_literal {body : List Char} {text : String} (h : Spells body text)
    (found : List (List Char)) :
    ('"' :: body ++ ['"']).foldlM CodeMode.step (.code true, found) =
      some (.code false, found ++ [body]) := by
  obtain ⟨⟨mode, read⟩, hread, hend⟩ := Option.bind_eq_some_iff.1 h.means
  have hmode : mode.inCode body = .literal body := by
    rw [Option.ite_none_right_eq_some] at hend
    rcases hend.1 with rfl | rfl <;> rfl
  have hopen : CodeMode.step (.code true, found) '"' = some (.literal [], found) := rfl
  have hinside : body.foldlM CodeMode.step (.literal [], found) = some (.literal body, found) := by
    have hbody := foldlM_inCode hread [] found
    rwa [List.nil_append, hmode] at hbody
  rw [List.cons_append, foldlM_cons_of_eq_some hopen, foldlM_append_of_eq_some hinside]
  rfl

-- ---------------------------------------------------------------------------
-- Texts with literals in them
-- ---------------------------------------------------------------------------

/-- Source text that is code at both ends and has the literals of texts in it, in their order. -/
def Holds (opens closes : Bool) (source : String) (texts : List String) : Prop :=
  ∃ bodies, List.Forall₂ Spells bodies texts ∧ ∀ found,
    source.toList.foldlM CodeMode.step (.code opens, found) = some (.code closes, found ++ bodies)

section
variable {opens between closes : Bool} {first second source : String} {texts others : List String}

theorem Holds.append (hf : Holds opens between first texts) (hs : Holds between closes second others) :
    Holds opens closes (first ++ second) (texts ++ others) := by
  obtain ⟨bodies, hbodies, hread⟩ := hf
  obtain ⟨rest, hrest, hreadRest⟩ := hs
  refine ⟨bodies ++ rest, List.rel_append hbodies hrest, fun found => ?_⟩
  rw [String.toList_append, foldlM_append_of_eq_some (hread found), hreadRest, List.append_assoc]

theorem Holds.ofList {chars : List Char}
    (h : ∀ found, chars.foldlM CodeMode.step (.code opens, found) = some (.code closes, found)) :
    Holds opens closes (String.ofList chars) [] :=
  ⟨[], .nil, fun found => by rw [String.toList_ofList, h, List.append_nil]⟩

theorem holds_literal {body : List Char} {text : String} (h : Spells body text) :
    Holds true false (String.ofList ('"' :: body ++ ['"'])) [text] :=
  ⟨[body], .cons h .nil, fun found => by rw [String.toList_ofList, foldlM_literal h]⟩

theorem holds_quoted (text : String) : Holds true false (Text.quoted text) [text] :=
  holds_literal (spells_escapes text)

def IsInert (text : String) : Prop := ∀ c ∈ text.toList, c ∉ ['"', '\'', '/']

theorem IsInert.ofList {chars : List Char} (h : chars.all (· ∉ ['"', '\'', '/']) = true) :
    IsInert (String.ofList chars) := by
  simpa [IsInert, String.toList_ofList] using h

theorem IsPlain.isInert (h : IsPlain source) : IsInert source := by
  intro c hm hin
  exact h c hm (List.mem_append_left ['\\', '\n', '\r'] hin)

theorem IsPlain.isVerbatim (h : IsPlain source) : IsVerbatim source := by
  intro c hm hin
  refine h c hm ?_
  simp only [List.mem_cons, List.not_mem_nil, or_false] at hin ⊢
  rcases hin with rfl | rfl | rfl | rfl <;> simp

/-- Whether a quote behind a text of code would open a literal. -/
def opensBehind (opens : Bool) (source : String) : Bool :=
  source.toList.foldl (fun _ c => c == ' ' || c == '(') opens

theorem IsInert.holds (h : IsInert source) (opens : Bool) :
    Holds opens (opensBehind opens source) source [] := by
  refine ⟨[], .nil, fun found => ?_⟩
  rw [opensBehind, List.append_nil]
  unfold IsInert at h
  generalize source.toList = chars at h
  induction chars generalizing opens with
  | nil => rfl
  | cons c rest ih =>
    obtain ⟨hc, hrest⟩ := List.forall_mem_cons.1 h
    have hstep : CodeMode.step (.code opens, found) c = some (.code (c == ' ' || c == '('), found) := by
      simp_all [CodeMode.step, CodeMode.readCode]
    rw [foldlM_cons_of_eq_some hstep, ih _ hrest, List.foldl_cons]

end

theorem foldlM_comment {text : List Char} (h : '\n' ∉ text) (found : List (List Char)) :
    text.foldlM CodeMode.step (.comment, found) = some (.comment, found) := by
  induction text with
  | nil => rfl
  | cons c rest ih =>
    obtain ⟨hc, hrest⟩ := List.ne_and_not_mem_of_not_mem_cons h
    have hstep : CodeMode.step (.comment, found) c = some (.comment, found) := by
      simp [CodeMode.step, hc.symm]
    rw [foldlM_cons_of_eq_some hstep, ih hrest]

theorem holds_comment {comment : List Char} (h : '\n' ∉ comment) (opens : Bool) :
    Holds opens false (String.ofList ('/' :: '/' :: comment) ++ "\n") [] := by
  refine ⟨[], .nil, fun found => ?_⟩
  have hopen : ['/', '/'].foldlM CodeMode.step (.code opens, found) = some (.comment, found) := rfl
  have hsplit : (String.ofList ('/' :: '/' :: comment) ++ "\n").toList =
      ['/', '/'] ++ (comment ++ ['\n']) := by simp
  rw [hsplit, foldlM_append_of_eq_some hopen, foldlM_append_of_eq_some (foldlM_comment h found),
    List.append_nil]
  rfl

theorem isInert_indent (depth : Nat) : IsInert (indent depth) := by
  intro c hm
  rw [indent, String.toList_ofList] at hm
  rw [List.eq_of_mem_replicate hm]
  decide

end Source

end HomeHub
