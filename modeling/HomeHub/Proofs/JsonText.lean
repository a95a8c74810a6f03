import HomeHub.Json.Parser
import HomeHub.Json.Printer

/-!
# Reading what was written

The text of a value is read as the document of that value, whatever the strings in it are and
whatever follows it. Numbers are left out: not every number is read as it was written.
-/

namespace HomeHub.Json

open Text (Symbol symbols)

theorem symbols_append (first second : List Char) :
    symbols (first ++ second) = symbols first ++ symbols second :=
  List.map_append

theorem symbols_nil : symbols [] = [] := rfl

theorem symbols_cons (c : Char) (rest : List Char) :
    symbols (c :: rest) = .char c :: symbols rest := rfl

-- ---------------------------------------------------------------------------
-- Literals
-- ---------------------------------------------------------------------------

theorem hexValue?_digitChar : ∀ n < 16, hexValue? (Nat.digitChar n) = some n := by
  decide

theorem unit?_digitChars {n : Nat} (h : n < 0x20) :
    unit? (.char '0') (.char '0') (.char (Nat.digitChar (n / 16))) (.char (Nat.digitChar (n % 16))) =
      some n := by
  have hhigh := hexValue?_digitChar (n / 16) (by omega)
  have hlow := hexValue?_digitChar (n % 16) (by omega)
  have hzero : hexValue? '0' = some 0 := rfl
  simp only [unit?, hhigh, hlow, hzero, Option.bind_eq_bind, Option.bind_some, Option.pure_def,
    Option.some.injEq]
  omega

theorem splitPieces_quote (rest : List Symbol) :
    splitPieces (.char '"' :: rest) = ([], .ok (), rest) := by
  rw [splitPieces.eq_def]
  rfl

theorem splitPieces_char {c : Char} (hq : c ≠ '"') (hb : c ≠ '\\') (hc : ¬ c.toNat < 0x20)
    (rest : List Symbol) : splitPieces (.char c :: rest) =
      (.symbol (.char c) :: (splitPieces rest).1, (splitPieces rest).2) := by
  rw [splitPieces.eq_def]
  simp only [hq, hb, hc, if_false]

theorem splitPieces_unit {a b c d : Char} (h : unit? (.char a) (.char b) (.char c) (.char d) = some n)
    (rest : List Symbol) :
    splitPieces (.char '\\' :: .char 'u' :: .char a :: .char b :: .char c :: .char d :: rest) =
      (.unit n :: (splitPieces rest).1, (splitPieces rest).2) := by
  rw [splitPieces.eq_def]
  simp [h]

theorem joinPieces_unit {n : Nat} (h : n < 0xd800) (ending : Except Failure Unit)
    (pieces : List Piece) : joinPieces ending (.unit n :: pieces) =
      (joinPieces ending pieces).map (.char (Char.ofNat n) :: ·) := by
  have hl : isLowSurrogate n = false := by
    simp only [isLowSurrogate, Bool.and_eq_false_iff, decide_eq_false_iff_not]
    omega
  have hh : isHighSurrogate n = false := by
    simp only [isHighSurrogate, Bool.and_eq_false_iff, decide_eq_false_iff_not]
    omega
  rw [joinPieces.eq_def]
  simp only [hl, hh, Bool.false_eq_true, if_false]

theorem exists_piece_escapeChar (c : Char) : ∃ piece,
    (∀ rest, splitPieces (symbols (escapeChar c) ++ rest) =
      (piece :: (splitPieces rest).1, (splitPieces rest).2)) ∧
    ∀ ending pieces, joinPieces ending (piece :: pieces) =
      (joinPieces ending pieces).map (.char c :: ·) := by
  unfold escapeChar
  -- the seven characters that a letter stands for
  iterate 7
    split
    · subst_vars
      exact ⟨.symbol (.char _), fun _ => rfl, fun _ _ => rfl⟩
  split
  · rename_i hlt
    refine ⟨.unit c.toNat, splitPieces_unit (unit?_digitChars hlt), fun ending pieces => ?_⟩
    rw [joinPieces_unit (by omega), Char.ofNat_toNat]
  · rename_i hq hb _ _ _ _ _ hlt
    exact ⟨.symbol (.char c), splitPieces_char hq hb hlt, fun _ _ => rfl⟩

theorem exists_pieces (text : List Char) (rest : List Symbol) : ∃ pieces,
    splitPieces (symbols (text.flatMap escapeChar) ++ .char '"' :: rest) = (pieces, .ok (), rest) ∧
      joinPieces (.ok ()) pieces = .ok (symbols text) := by
  induction text with
  | nil => exact ⟨[], splitPieces_quote rest, rfl⟩
  | cons c others ih =>
    obtain ⟨pieces, hs, hj⟩ := ih
    obtain ⟨piece, hp, hc⟩ := exists_piece_escapeChar c
    refine ⟨piece :: pieces, ?_, ?_⟩
    · rw [List.flatMap_cons, symbols_append, List.append_assoc, hp, hs]
    · rw [hc, hj]
      rfl

theorem splitLiteral_escaped (text : String) (rest : List Symbol) :
    splitLiteral (symbols (text.toList.flatMap escapeChar) ++ .char '"' :: rest) =
      (.ok text, rest) := by
  obtain ⟨pieces, hs, hj⟩ := exists_pieces text.toList rest
  simp [splitLiteral, hs, hj, Except.bind, Symbol.toText?_symbols, Leaf.ok]

-- ---------------------------------------------------------------------------
-- Space
-- ---------------------------------------------------------------------------

theorem skipSpace_blank {blank : List Char} (h : ∀ c ∈ blank, isSpace c = true)
    (rest : List Symbol) : skipSpace (symbols blank ++ rest) = skipSpace rest := by
  induction blank with
  | nil => rfl
  | cons c others ih =>
    obtain ⟨hc, ho⟩ := List.forall_mem_cons.1 h
    show (if isSpace c then skipSpace (symbols others ++ rest) else _) = _
    rw [if_pos hc, ih ho]

theorem skipSpace_char {c : Char} (h : isSpace c = false) (rest : List Symbol) :
    skipSpace (.char c :: rest) = .char c :: rest := by
  simp [skipSpace, h]

structure Style.IsSpaced (style : Style) : Prop where
  lineBreak : ∀ depth, ∀ c ∈ style.lineBreak depth, isSpace c = true
  colon : ∃ blank, style.colon = ':' :: blank ∧ ∀ c ∈ blank, isSpace c = true

theorem Style.isSpaced_indented : Style.indented.IsSpaced where
  lineBreak depth := List.forall_mem_cons.2 ⟨rfl, fun c hc => by
    rw [List.eq_of_mem_replicate hc]
    rfl⟩
  colon := ⟨[' '], rfl, List.forall_mem_singleton.2 rfl⟩

-- ---------------------------------------------------------------------------
-- Documents
-- ---------------------------------------------------------------------------

/-- A value without a number, with so many arrays and objects at most inside one another. -/
inductive Value.IsTextual : Nat → Value → Prop where
  | null {levels : Nat} : IsTextual levels .null
  | bool {levels : Nat} (value : Bool) : IsTextual levels (.bool value)
  | string {levels : Nat} (text : String) : IsTextual levels (.string text)
  | array {levels : Nat} {items : List Value} (h : ∀ v ∈ items, IsTextual levels v) :
      IsTextual (levels + 1) (.array items)
  | object {levels : Nat} {members : List (String × Value)} (h : ∀ m ∈ members, IsTextual levels m.2) :
      IsTextual (levels + 1) (.object members)

def starts : List Char := ['n', 't', 'f', '"', '[', '\x7b']

theorem Value.IsTextual.exists_start {levels : Nat} {value : Value} (h : value.IsTextual levels)
    (style : Style) (depth : Nat) : ∃ c rest, value.write style depth = c :: rest ∧ c ∈ starts := by
  cases h with
  | null => exact ⟨_, _, rfl, by decide⟩
  | bool value => cases value <;> exact ⟨_, _, rfl, by decide⟩
  | string text => exact ⟨_, _, rfl, by decide⟩
  | @array _ items h => cases items <;> exact ⟨_, _, rfl, by decide⟩
  | @object _ members h => cases members <;> exact ⟨_, _, rfl, by decide⟩

theorem isSpace_of_mem_starts : ∀ c ∈ starts, isSpace c = false := by
  intro c hc
  simp only [starts, List.mem_cons, List.not_mem_nil, or_false] at hc
  rcases hc with rfl | rfl | rfl | rfl | rfl | rfl <;> rfl

namespace Document

theorem split_of_skipSpace {text other : List Symbol} (h : skipSpace text = skipSpace other)
    (fuel : Nat) : split fuel text = split fuel other := by
  cases fuel with
  | zero => rfl
  | succ fuel => simp only [split, h]

def IsRead (style : Style) (value : Value) : Prop :=
  ∀ depth fuel rest, 2 * (value.write style depth).length ≤ fuel →
    split fuel (symbols (value.write style depth) ++ rest) = (ofValue value, rest)

section
variable {style : Style} {lead trail : List Char} {levels depth fuel : Nat}

/-- One item is read; what stands behind it says whether another follows. -/
theorem splitItems_write {value : Value} (hv : IsRead style value)
    (hl : ∀ c ∈ lead, isSpace c = true) (hfuel : 2 * (value.write style depth).length ≤ fuel)
    (rest : List Symbol) :
    (∀ more, skipSpace rest = .char ',' :: more →
      splitItems (fuel + 1) (symbols lead ++ (symbols (value.write style depth) ++ rest)) =
        (ofValue value :: (splitItems fuel more).1, (splitItems fuel more).2)) ∧
    ∀ more, skipSpace rest = .char ']' :: more →
      splitItems (fuel + 1) (symbols lead ++ (symbols (value.write style depth) ++ rest)) =
        ([ofValue value], .ok (), more) := by
  constructor <;> intro more h <;>
    simp only [splitItems, split_of_skipSpace (skipSpace_blank hl _), hv depth fuel rest hfuel, h]

theorem splitItems_written (hs : style.IsSpaced) {first : Value} {items : List Value}
    (hread : ∀ v ∈ first :: items, IsRead style v) (hl : ∀ c ∈ lead, isSpace c = true)
    (ht : ∀ c ∈ trail, isSpace c = true)
    (hfuel : 2 * ((first.write style depth).length +
      (Value.writeItems style depth items).length) < fuel) (rest : List Symbol) :
    splitItems fuel (symbols lead ++ (symbols (first.write style depth) ++
      (symbols (Value.writeItems style depth items) ++ (symbols trail ++ .char ']' :: rest)))) =
        (ofItems (first :: items), .ok (), rest) := by
  induction items generalizing first lead fuel with
  | nil =>
    obtain ⟨fuel, rfl⟩ := Nat.exists_eq_add_of_lt (Nat.zero_lt_of_lt hfuel)
    have hclose : skipSpace (symbols trail ++ .char ']' :: rest) = .char ']' :: rest := by
      rw [skipSpace_blank ht, skipSpace_char rfl]
    rw [Nat.zero_add, Value.writeItems, symbols_nil, List.nil_append]
    exact (splitItems_write (hread first List.mem_cons_self) hl (by omega) _).2 rest hclose
  | cons second others ih =>
    obtain ⟨fuel, rfl⟩ := Nat.exists_eq_add_of_lt (Nat.zero_lt_of_lt hfuel)
    have hmore : (Value.writeItems style depth (second :: others)).length =
        1 + ((style.lineBreak depth).length + ((second.write style depth).length +
          (Value.writeItems style depth others).length)) := by
      simp only [Value.writeItems, List.length_cons, List.length_append]
      omega
    have hless : 2 * ((second.write style depth).length +
        (Value.writeItems style depth others).length) < fuel := by omega
    have hrest := ih (List.forall_mem_cons.1 hread).2 (hs.lineBreak depth) hless
    rw [Nat.zero_add, Value.writeItems, symbols_cons, List.cons_append,
      (splitItems_write (hread first List.mem_cons_self) hl (by omega) _).1 _ (skipSpace_char rfl _)]
    simp only [symbols_append, List.append_assoc, hrest]
    rfl

theorem splitMembers_writeMember (hs : style.IsSpaced) {key : String} {value : Value}
    (hv : IsRead style value) (hl : ∀ c ∈ lead, isSpace c = true)
    (hfuel : 2 * (Value.writeMember style depth (key, value)).length ≤ fuel) (rest : List Symbol) :
    (∀ more, skipSpace rest = .char ',' :: more → splitMembers (fuel + 1)
        (symbols lead ++ (symbols (Value.writeMember style depth (key, value)) ++ rest)) =
      ((.ok key, ofValue value) :: (splitMembers fuel more).1, (splitMembers fuel more).2)) ∧
    ∀ more, skipSpace rest = .char '\x7d' :: more → splitMembers (fuel + 1)
        (symbols lead ++ (symbols (Value.writeMember style depth (key, value)) ++ rest)) =
      ([(.ok key, ofValue value)], .ok (), more) := by
  obtain ⟨blank, hcolon, hblank⟩ := hs.colon
  have hlength : (value.write style depth).length ≤
      (Value.writeMember style depth (key, value)).length := by
    simp only [Value.writeMember, List.length_append]
    omega
  constructor <;> intro more h <;>
    simp only [splitMembers, Value.writeMember, hcolon, literal, symbols_append, symbols_cons,
      List.cons_append, List.nil_append, List.append_assoc, skipSpace_blank hl,
      skipSpace_char (c := '"') rfl, splitLiteral_escaped, skipSpace_char (c := ':') rfl,
      split_of_skipSpace (skipSpace_blank hblank _), hv depth fuel rest (by omega), h]

theorem splitMembers_written (hs : style.IsSpaced) {first : String × Value}
    {members : List (String × Value)} (hread : ∀ m ∈ first :: members, IsRead style m.2)
    (hl : ∀ c ∈ lead, isSpace c = true) (ht : ∀ c ∈ trail, isSpace c = true)
    (hfuel : 2 * ((Value.writeMember style depth first).length +
      (Value.writeMembers style depth members).length) < fuel) (rest : List Symbol) :
    splitMembers fuel (symbols lead ++ (symbols (Value.writeMember style depth first) ++
      (symbols (Value.writeMembers style depth members) ++
        (symbols trail ++ .char '\x7d' :: rest)))) =
          (ofMembers (first :: members), .ok (), rest) := by
  induction members generalizing first lead fuel with
  | nil =>
    obtain ⟨key, value⟩ := first
    have hv : IsRead style value := hread _ List.mem_cons_self
    obtain ⟨fuel, rfl⟩ := Nat.exists_eq_add_of_lt (Nat.zero_lt_of_lt hfuel)
    have hclose : skipSpace (symbols trail ++ .char '\x7d' :: rest) = .char '\x7d' :: rest := by
      rw [skipSpace_blank ht, skipSpace_char rfl]
    rw [Nat.zero_add, Value.writeMembers, symbols_nil, List.nil_append]
    exact (splitMembers_writeMember hs hv hl (by omega) _).2 rest hclose
  | cons second others ih =>
    obtain ⟨key, value⟩ := first
    have hv : IsRead style value := hread _ List.mem_cons_self
    obtain ⟨fuel, rfl⟩ := Nat.exists_eq_add_of_lt (Nat.zero_lt_of_lt hfuel)
    have hmore : (Value.writeMembers style depth (second :: others)).length =
        1 + ((style.lineBreak depth).length + ((Value.writeMember style depth second).length +
          (Value.writeMembers style depth others).length)) := by
      simp only [Value.writeMembers, List.length_cons, List.length_append]
      omega
    have hless : 2 * ((Value.writeMember style depth second).length +
        (Value.writeMembers style depth others).length) < fuel := by omega
    have hrest := ih (List.forall_mem_cons.1 hread).2 (hs.lineBreak depth) hless
    rw [Nat.zero_add, Value.writeMembers, symbols_cons, List.cons_append,
      (splitMembers_writeMember hs hv hl (by omega) _).1 _ (skipSpace_char rfl _)]
    simp only [symbols_append, List.append_assoc, hrest]
    rfl

theorem split_string (text : String) (rest : List Symbol) :
    split (fuel + 1) (symbols (literal text.toList) ++ rest) = (.string (.ok text), rest) := by
  have hs (more : List Symbol) : skipSpace (.char '"' :: more) = .char '"' :: more := rfl
  simp only [literal, symbols_cons, symbols_append, symbols_nil, List.cons_append,
    List.append_assoc, List.nil_append, split, hs, splitLiteral_escaped]
  rfl

theorem split_array {text more : List Symbol} {c : Char} (h : skipSpace text = .char c :: more)
    (hc : c ≠ ']') : split (fuel + 1) (.char '[' :: text) =
      let (items, ending, rest) := splitItems fuel (.char c :: more)
      (.array items ending, rest) := by
  have hs : skipSpace (.char '[' :: text) = .char '[' :: text := rfl
  have hd : Decimal.isDigit '[' = false := rfl
  simp only [split, hs, h, hd, Char.reduceEq, Bool.false_eq_true, if_false, if_true]
  split
  · simp_all
  · simp_all
  · rfl

theorem split_object {text more : List Symbol} {c : Char} (h : skipSpace text = .char c :: more)
    (hc : c ≠ '\x7d') : split (fuel + 1) (.char '\x7b' :: text) =
      let (members, ending, rest) := splitMembers fuel (.char c :: more)
      (.object members ending, rest) := by
  have hs : skipSpace (.char '\x7b' :: text) = .char '\x7b' :: text := rfl
  have hd : Decimal.isDigit '\x7b' = false := rfl
  simp only [split, hs, h, hd, Char.reduceEq, Bool.false_eq_true, if_false, if_true]
  split
  · simp_all
  · simp_all
  · rfl

theorem isRead_array (hs : style.IsSpaced) {items : List Value}
    (h : ∀ v ∈ items, v.IsTextual levels) (hread : ∀ v ∈ items, IsRead style v) :
    IsRead style (.array items) := by
  intro depth fuel rest hfuel
  cases items with
  | nil =>
    obtain ⟨fuel, rfl⟩ := Nat.exists_eq_add_of_lt (Nat.zero_lt_of_lt hfuel)
    rfl
  | cons first others =>
    obtain ⟨c, more, hw, hc⟩ := (h first List.mem_cons_self).exists_start style (depth + 1)
    have hne : c ≠ ']' := by
      rintro rfl
      exact absurd hc (by decide)
    simp only [Value.write, List.length_cons, List.length_append] at hfuel
    obtain ⟨fuel, rfl⟩ := Nat.exists_eq_add_of_lt (Nat.zero_lt_of_lt hfuel)
    have hless : 2 * ((first.write style (depth + 1)).length +
        (Value.writeItems style (depth + 1) others).length) < fuel := by omega
    have hitems := splitItems_written hs hread (List.forall_mem_nil _) (hs.lineBreak depth) hless rest
    simp only [hw, symbols_nil, symbols_cons, List.nil_append, List.cons_append] at hitems
    have hstart (text : List Symbol) :
        skipSpace (symbols (style.lineBreak (depth + 1)) ++ .char c :: text) = .char c :: text := by
      rw [skipSpace_blank (hs.lineBreak _), skipSpace_char (isSpace_of_mem_starts c hc)]
    simp only [Value.write, hw, symbols_nil, symbols_cons, symbols_append, List.nil_append,
      List.cons_append, List.append_assoc, Nat.zero_add, split_array (hstart _) hne, hitems]
    rfl

theorem isRead_object (hs : style.IsSpaced) {members : List (String × Value)}
    (hread : ∀ m ∈ members, IsRead style m.2) : IsRead style (.object members) := by
  intro depth fuel rest hfuel
  cases members with
  | nil =>
    obtain ⟨fuel, rfl⟩ := Nat.exists_eq_add_of_lt (Nat.zero_lt_of_lt hfuel)
    rfl
  | cons first others =>
    obtain ⟨more, hw⟩ : ∃ more, Value.writeMember style (depth + 1) first = '"' :: more := by
      obtain ⟨key, value⟩ := first
      exact ⟨_, rfl⟩
    simp only [Value.write, List.length_cons, List.length_append] at hfuel
    obtain ⟨fuel, rfl⟩ := Nat.exists_eq_add_of_lt (Nat.zero_lt_of_lt hfuel)
    have hless : 2 * ((Value.writeMember style (depth + 1) first).length +
        (Value.writeMembers style (depth + 1) others).length) < fuel := by omega
    have hmembers :=
      splitMembers_written hs hread (List.forall_mem_nil _) (hs.lineBreak depth) hless rest
    simp only [hw, symbols_nil, symbols_cons, List.nil_append, List.cons_append] at hmembers
    have hstart (text : List Symbol) :
        skipSpace (symbols (style.lineBreak (depth + 1)) ++ .char '"' :: text) =
          .char '"' :: text := by
      rw [skipSpace_blank (hs.lineBreak _), skipSpace_char rfl]
    simp only [Value.write, hw, symbols_nil, symbols_cons, symbols_append, List.nil_append,
      List.cons_append, List.append_assoc, Nat.zero_add, split_object (hstart _) (by decide),
      hmembers]
    rfl

theorem isRead_of_isTextual (hs : style.IsSpaced) {value : Value}
    (h : value.IsTextual levels) : IsRead style value := by
  induction h with
  | null =>
    intro depth fuel rest hfuel
    obtain ⟨fuel, rfl⟩ := Nat.exists_eq_add_of_lt (Nat.zero_lt_of_lt hfuel)
    rfl
  | bool value =>
    intro depth fuel rest hfuel
    cases value <;> obtain ⟨fuel, rfl⟩ := Nat.exists_eq_add_of_lt (Nat.zero_lt_of_lt hfuel) <;> rfl
  | string text =>
    intro depth fuel rest hfuel
    obtain ⟨fuel, rfl⟩ := Nat.exists_eq_add_of_lt (Nat.zero_lt_of_lt hfuel)
    exact split_string text rest
  | array h ih => exact isRead_array hs h ih
  | object h ih => exact isRead_object hs ih

end

theorem ofText_written {style : Style} (hs : style.IsSpaced) {levels : Nat} {value : Value}
    (h : value.IsTextual levels) (depth : Nat) (rest : List Symbol) :
    ofText (symbols (value.write style depth) ++ rest) = (ofValue value, rest) := by
  refine isRead_of_isTextual hs h depth _ rest ?_
  simp only [List.length_append, symbols, List.length_map]
  omega

end Document

end HomeHub.Json
