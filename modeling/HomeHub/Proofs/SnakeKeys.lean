import HomeHub.Proofs.MemberNames

/-!
# Keys in lower case

Which keys made of words in lower case share an identifier. Capitals show where words start, but a
digit has none: keys share an identifier just if they are equal up to the underscores in front of
digits. The mark of a scope brings no keys together.
-/

namespace HomeHub.Naming

open Source (IsSnakeTail snakeChars ne_underscore)

-- ---------------------------------------------------------------------------
-- Keys
-- ---------------------------------------------------------------------------

def keyWords (key : String) : List String :=
  (key.toList.splitOn '_').map String.ofList

/-- Words of letters in lower case and digits, between single underscores. -/
def IsSnakeKey (key : String) : Prop :=
  ∀ word ∈ keyWords key, word ≠ "" ∧ ∀ c ∈ word.toList, c.isLower = true ∨ c.isDigit = true

instance (key : String) : Decidable (IsSnakeKey key) :=
  have (word : String) : Decidable (∀ c ∈ word.toList, c.isLower = true ∨ c.isDigit = true) :=
    List.decidableBAll _ _
  inferInstanceAs (Decidable (∀ word ∈ keyWords key, _ ∧ _))

def HasLetteredWords (key : String) : Prop :=
  ∀ word ∈ (keyWords key).tail, word.toList.head?.any Char.isDigit = false

instance (key : String) : Decidable (HasLetteredWords key) :=
  inferInstanceAs (Decidable (∀ word ∈ (keyWords key).tail, _))

/-- A key without the underscores that a digit follows directly. -/
def dropBreaks : List Char → List Char
  | [] => []
  | c :: rest =>
    if c = '_' && rest.head?.any Char.isDigit then dropBreaks rest else c :: dropBreaks rest

def withoutBreaks (key : String) : String :=
  String.ofList (dropBreaks key.toList)

section
variable {c : Char} {rest : List Char}

theorem dropBreaks_cons (h : c ≠ '_') : dropBreaks (c :: rest) = c :: dropBreaks rest := by
  simp [dropBreaks, h]

theorem dropBreaks_break (h : c.isDigit = true) : dropBreaks ('_' :: c :: rest) = c :: dropBreaks rest := by
  rw [dropBreaks, if_pos (by simp [h]), dropBreaks_cons (ne_underscore (isAlphanum_of_isDigit h))]

theorem dropBreaks_word (h : c.isDigit = false) (hu : c ≠ '_') :
    dropBreaks ('_' :: c :: rest) = '_' :: c :: dropBreaks rest := by
  rw [dropBreaks, if_neg (by simp [h]), dropBreaks_cons hu]

theorem dropBreaks_append {word : List Char} (h : '_' ∉ word) (rest : List Char) :
    dropBreaks (word ++ rest) = word ++ dropBreaks rest := by
  induction word with
  | nil => rfl
  | cons c word ih =>
    obtain ⟨hc, hw⟩ := not_or.1 (mt List.mem_cons.2 h)
    rw [List.cons_append, dropBreaks_cons (Ne.symm hc), ih hw, List.cons_append]

end

-- ---------------------------------------------------------------------------
-- Words by their characters
-- ---------------------------------------------------------------------------

theorem ne_underscore_of_isLower_or_isDigit {c : Char} (h : c.isLower = true ∨ c.isDigit = true) :
    c ≠ '_' := by
  rintro rfl
  exact absurd h (by decide)

theorem isAlphanum_of_isLower_or_isDigit {c : Char} (h : c.isLower = true ∨ c.isDigit = true) :
    c.isAlphanum = true := by
  rcases h with hl | hd
  · simp [Char.isAlphanum, Char.isAlpha, hl]
  · exact isAlphanum_of_isDigit hd

theorem isUpper_eq_false {c : Char} (h : c.isLower = true ∨ c.isDigit = true) : c.isUpper = false := by
  rcases h with hl | hd
  · exact Bool.eq_false_iff.2 (Char.not_isUpper_of_isLower hl)
  · exact isUpper_eq_false_of_isDigit hd

theorem isUpper_toUpper {c : Char} (h : c.isLower = true) :
    c.toUpper.isUpper = true ∧ c.toUpper.toLower = c := by
  constructor
  · simp [Char.isAlpha, h]
  · rw [Char.toLower_toUpper_eq_toLower, Char.toLower_eq_of_not_isUpper (Char.not_isUpper_of_isLower h)]

def IsWordList (words : List (List Char)) : Prop :=
  ∀ word ∈ words, word ≠ [] ∧ ∀ c ∈ word, c.isLower = true ∨ c.isDigit = true

theorem IsSnakeKey.isWordList {key : String} (h : IsSnakeKey key) :
    IsWordList (key.toList.splitOn '_') := by
  intro word hm
  obtain ⟨hne, hc⟩ := h _ (List.mem_map_of_mem hm)
  rw [String.toList_ofList] at hc
  refine ⟨?_, hc⟩
  rintro rfl
  exact hne rfl

theorem IsSnakeTail.append {word rest : List Char}
    (hw : ∀ c ∈ word, c.isLower = true ∨ c.isDigit = true) (hr : IsSnakeTail rest) :
    IsSnakeTail (word ++ rest) := by
  induction word with
  | nil => exact hr
  | cons c word ih =>
    obtain ⟨hc, hw⟩ := List.forall_mem_cons.1 hw
    exact .char hc (ih hw)

theorem intercalate_cons_eq (c : Char) (word : List Char) (words : List (List Char)) :
    ∃ rest, ['_'].intercalate ((c :: word) :: words) = c :: rest := by
  cases words with
  | nil => exact ⟨word, List.intercalate_singleton⟩
  | cons next others => exact ⟨_, List.intercalate_cons_cons⟩

/-- Words are put together to a letter or digit and what may stand behind it. -/
theorem exists_isSnakeTail_intercalate {words : List (List Char)} (hne : words ≠ [])
    (h : IsWordList words) : ∃ c rest, ['_'].intercalate words = c :: rest ∧
      (c.isLower = true ∨ c.isDigit = true) ∧ IsSnakeTail rest := by
  induction words with
  | nil => exact absurd rfl hne
  | cons word words ih =>
    obtain ⟨⟨hword, hchars⟩, hwords⟩ := List.forall_mem_cons.1 h
    obtain ⟨c, tail, rfl⟩ := List.exists_cons_of_ne_nil hword
    obtain ⟨hc, htail⟩ := List.forall_mem_cons.1 hchars
    cases words with
    | nil =>
      refine ⟨c, tail, List.intercalate_singleton, hc, ?_⟩
      simpa using IsSnakeTail.append htail .nil
    | cons next others =>
      obtain ⟨d, rest, hi, hd, hr⟩ := ih (List.cons_ne_nil _ _) hwords
      refine ⟨c, tail ++ '_' :: d :: rest, ?_, hc, IsSnakeTail.append htail (.word hd hr)⟩
      rw [List.intercalate_cons_cons, hi]
      simp

theorem IsSnakeKey.exists_isSnakeTail {key : String} (h : IsSnakeKey key) : ∃ c rest,
    key.toList = c :: rest ∧ (c.isLower = true ∨ c.isDigit = true) ∧ IsSnakeTail rest := by
  have hwords := exists_isSnakeTail_intercalate (List.splitOn_ne_nil _ _) h.isWordList
  rwa [List.intercalate_splitOn] at hwords

theorem dropBreaks_intercalate {words : List (List Char)} (h : IsWordList words)
    (hl : ∀ word ∈ words.tail, word.head?.any Char.isDigit = false) :
    dropBreaks (['_'].intercalate words) = ['_'].intercalate words := by
  have hplain : ∀ word ∈ words, '_' ∉ word := fun word hm hu =>
    absurd ((h word hm).2 _ hu) (by decide)
  induction words with
  | nil => rfl
  | cons word words ih =>
    obtain ⟨hword, hothers⟩ := List.forall_mem_cons.1 hplain
    cases words with
    | nil =>
      have hlast := dropBreaks_append hword []
      rw [List.append_nil] at hlast
      rw [List.intercalate_singleton, hlast, dropBreaks, List.append_nil]
    | cons next others =>
      obtain ⟨-, hwords⟩ := List.forall_mem_cons.1 h
      obtain ⟨⟨hnext, hchars⟩, -⟩ := List.forall_mem_cons.1 hwords
      obtain ⟨hfirst, hlater⟩ := List.forall_mem_cons.1 hl
      obtain ⟨c, tail, rfl⟩ := List.exists_cons_of_ne_nil hnext
      obtain ⟨rest, hi⟩ := intercalate_cons_eq c tail others
      have hu := ne_underscore_of_isLower_or_isDigit (hchars c List.mem_cons_self)
      have hrest := ih hwords hlater hothers
      rw [hi, dropBreaks_cons hu] at hrest
      rw [List.intercalate_cons_cons, List.append_assoc, dropBreaks_append hword, hi,
        List.singleton_append, dropBreaks_word hfirst hu, hrest]

theorem withoutBreaks_eq_self {key : String} (h : IsSnakeKey key) (hl : HasLetteredWords key) :
    withoutBreaks key = key := by
  have hheads : ∀ word ∈ (key.toList.splitOn '_').tail, word.head?.any Char.isDigit = false := by
    intro word hm
    have hm : String.ofList word ∈ (keyWords key).tail := by
      rw [keyWords, ← List.map_tail]
      exact List.mem_map_of_mem hm
    have hword := hl _ hm
    rwa [String.toList_ofList] at hword
  have hkept := dropBreaks_intercalate h.isWordList hheads
  rw [List.intercalate_splitOn] at hkept
  rw [withoutBreaks, hkept, String.ofList_toList]

-- ---------------------------------------------------------------------------
-- Reading keys back
-- ---------------------------------------------------------------------------

theorem pascalChars_digit {c : Char} (h : c.isDigit = true) (atStart : Bool) (rest : List Char) :
    pascalChars atStart (c :: rest) = c :: pascalChars false rest := by
  rw [pascalChars, if_pos (isAlphanum_of_isDigit h)]
  cases atStart with
  | false => rfl
  | true => rw [if_pos rfl, Char.toUpper_eq_of_not_isLower (by simp [isLower_eq_false_of_isDigit h])]

theorem pascalChars_letter {c : Char} (h : c.isLower = true) (rest : List Char) :
    pascalChars true (c :: rest) = c.toUpper :: pascalChars false rest := by
  rw [pascalChars, if_pos (isAlphanum_of_isLower_or_isDigit (.inl h)), if_pos rfl]

theorem pascalChars_underscore (atStart : Bool) (rest : List Char) :
    pascalChars atStart ('_' :: rest) = pascalChars true rest := by
  rw [pascalChars, if_neg (by decide)]

/-- A word that starts with a digit cannot be told from the end of the word in front of it. -/
theorem pascalChars_dropBreaks (atStart : Bool) (key : List Char) :
    pascalChars atStart (dropBreaks key) = pascalChars atStart key := by
  fun_induction dropBreaks key generalizing atStart with
  | case1 => rfl
  | case2 c rest hbreak ih =>
    obtain ⟨rfl, hdigit⟩ : c = '_' ∧ rest.head?.any Char.isDigit = true := by simpa using hbreak
    cases rest with
    | nil => simp at hdigit
    | cons d others =>
      have hd : d.isDigit = true := by simpa using hdigit
      rw [ih, pascalChars_underscore, pascalChars_digit hd, pascalChars_digit hd]
  | case3 c rest _ ih => rw [pascalChars, pascalChars, ih, ih]

theorem pascalCase_withoutBreaks (key : String) : pascalCase (withoutBreaks key) = pascalCase key := by
  rw [pascalCase, withoutBreaks, String.toList_ofList, pascalChars_dropBreaks, pascalCase]

theorem snakeChars_pascalChars {rest : List Char} (h : IsSnakeTail rest) {previous : Char}
    (hp : previous ≠ '_') :
    snakeChars (some previous) (pascalChars false rest) = dropBreaks rest := by
  induction h generalizing previous with
  | nil => rfl
  | @char c rest hc _ ih =>
    have hu := ne_underscore_of_isLower_or_isDigit hc
    rw [pascalChars, if_pos (isAlphanum_of_isLower_or_isDigit hc), if_neg (by simp),
      Source.snakeChars_of_not_isUpper (isUpper_eq_false hc), ih hu, dropBreaks_cons hu]
  | @word c rest hc _ ih =>
    have hu := ne_underscore_of_isLower_or_isDigit hc
    rw [pascalChars_underscore]
    by_cases hd : c.isDigit = true
    · rw [pascalChars_digit hd, Source.snakeChars_of_not_isUpper (isUpper_eq_false hc), ih hu,
        dropBreaks_break hd]
    · obtain ⟨hcapital, hlower⟩ := isUpper_toUpper (hc.resolve_right hd)
      rw [pascalChars_letter (hc.resolve_right hd), Source.snakeChars_of_isUpper hcapital hp, hlower,
        ih (ne_underscore (isAlphanum_of_isUpper hcapital)), dropBreaks_word (by simpa using hd) hu]

/-- Capitals tell where words start: all of a key but its underscores in front of digits is read
back from the words in capitals. -/
theorem snakeCase_pascalCase {key : String} (h : IsSnakeKey key) :
    Source.snakeCase (pascalCase key) = withoutBreaks key := by
  obtain ⟨c, rest, hkey, hc, hrest⟩ := h.exists_isSnakeTail
  have hu := ne_underscore_of_isLower_or_isDigit hc
  rw [Source.snakeCase, pascalCase, String.toList_ofList, withoutBreaks, hkey, dropBreaks_cons hu]
  by_cases hd : c.isDigit = true
  · rw [pascalChars_digit hd, Source.snakeChars_of_not_isUpper (isUpper_eq_false hc),
      snakeChars_pascalChars hrest hu]
  · obtain ⟨hcapital, hlower⟩ := isUpper_toUpper (hc.resolve_right hd)
    rw [pascalChars_letter (hc.resolve_right hd), snakeChars, if_pos hcapital, hlower,
      snakeChars_pascalChars hrest (ne_underscore (isAlphanum_of_isUpper hcapital))]
    rfl

theorem pascalCase_eq_iff {first second : String} (hf : IsSnakeKey first) (hs : IsSnakeKey second) :
    pascalCase first = pascalCase second ↔ withoutBreaks first = withoutBreaks second := by
  constructor
  · intro h
    rw [← snakeCase_pascalCase hf, h, snakeCase_pascalCase hs]
  · intro h
    rw [← pascalCase_withoutBreaks first, h, pascalCase_withoutBreaks]

-- ---------------------------------------------------------------------------
-- Identifiers of keys
-- ---------------------------------------------------------------------------

theorem toList_resolve {key : String} {c : Char} {rest : List Char}
    (h : pascalChars true key.toList = c :: rest) (mark : String) :
    (resolve key mark).toList = if c.isDigit then mark.toList ++ c :: rest else c :: rest := by
  simp only [resolve, resolveChars, h, String.toList_ofList]

theorem resolve_eq_iff_pascalCase {mark first second : String} (hm : IsMark mark)
    (hf : pascalCase first ≠ "") (hs : pascalCase second ≠ "") :
    resolve first mark = resolve second mark ↔ pascalCase first = pascalCase second := by
  have hcons {key : String} (h : pascalCase key ≠ "") :
      ∃ c rest, pascalChars true key.toList = c :: rest :=
    List.exists_cons_of_ne_nil fun hnil => h (by rw [pascalCase, hnil, String.ofList_nil])
  have hplain {key : String} {c : Char} {rest : List Char}
      (h : pascalChars true key.toList = c :: rest) : '_' ∉ c :: rest := fun hu =>
    absurd (isAlphanum_of_mem_pascalChars _ (h ▸ hu)) (by decide)
  obtain ⟨u, -, hmark⟩ := hm
  obtain ⟨c, rest, hfirst⟩ := hcons hf
  obtain ⟨d, others, hsecond⟩ := hcons hs
  rw [← String.toList_inj, ← String.toList_inj, toList_resolve hfirst, toList_resolve hsecond, hmark,
    pascalCase, pascalCase, String.toList_ofList, String.toList_ofList, hfirst, hsecond]
  constructor
  · intro h
    have hmarked (letters : List Char) : '_' ∈ [u, '_'] ++ letters := by simp
    split at h <;> split at h
    · exact List.append_cancel_left h
    · exact absurd (h ▸ hmarked _) (hplain hsecond)
    · exact absurd (h.symm ▸ hmarked _) (hplain hfirst)
    · exact h
  · intro h
    obtain ⟨rfl, rfl⟩ := List.cons.inj h
    rfl

theorem pascalCase_ne_empty {key : String} (h : IsSnakeKey key) : pascalCase key ≠ "" := by
  obtain ⟨c, rest, hkey, hc, -⟩ := h.exists_isSnakeTail
  rw [pascalCase, hkey, pascalChars, if_pos (isAlphanum_of_isLower_or_isDigit hc)]
  simp [String.ofList_eq_empty_iff]

/-- Keys in lower case share an identifier just if they are equal without the underscores in front of
digits, whatever the scope. The mark of the scope does not bring them together, and no two share one of
those whose words, but for the first, start with letters. -/
theorem resolve_eq_resolve_iff {mark first second : String}
    (hm : mark ∈ [entityMark, fieldMark, domainMark]) (hf : IsSnakeKey first)
    (hs : IsSnakeKey second) :
    (resolve first mark = resolve second mark ↔ withoutBreaks first = withoutBreaks second) ∧
    (resolve first mark = resolve second mark ↔ pascalCase first = pascalCase second) ∧
    (HasLetteredWords first → HasLetteredWords second →
      resolve first mark = resolve second mark → first = second) := by
  have hmark : IsMark mark := by
    simp only [List.mem_cons, List.not_mem_nil, or_false] at hm
    rcases hm with rfl | rfl | rfl
    · exact isMark_entityMark
    · exact isMark_fieldMark
    · exact isMark_domainMark
  have hwords := resolve_eq_iff_pascalCase hmark (pascalCase_ne_empty hf) (pascalCase_ne_empty hs)
  have hbreaks := hwords.trans (pascalCase_eq_iff hf hs)
  refine ⟨hbreaks, hwords, fun hfirst hsecond h => ?_⟩
  rw [← withoutBreaks_eq_self hf hfirst, hbreaks.1 h, withoutBreaks_eq_self hs hsecond]

theorem resolve_eq_resolve_floor :
    resolve "1st_2nd_floor" entityMark = resolve "1st2nd_floor" entityMark ∧
      resolve "24_hours" fieldMark ≠ resolve "24hours" fieldMark := by
  have hfirst : IsSnakeKey "1st_2nd_floor" ∧ IsSnakeKey "1st2nd_floor" := by decide
  have hsecond : IsSnakeKey "24_hours" ∧ IsSnakeKey "24hours" := by decide
  have hlettered : HasLetteredWords "24_hours" ∧ HasLetteredWords "24hours" := by decide
  have hbreaks : withoutBreaks "1st_2nd_floor" = withoutBreaks "1st2nd_floor" := by decide
  have hmarks : entityMark ∈ [entityMark, fieldMark, domainMark] ∧
      fieldMark ∈ [entityMark, fieldMark, domainMark] := by decide
  constructor
  · exact (resolve_eq_resolve_iff hmarks.1 hfirst.1 hfirst.2).1.2 hbreaks
  · intro h
    have hsame := (resolve_eq_resolve_iff hmarks.2 hsecond.1 hsecond.2).2.2 hlettered.1 hlettered.2 h
    exact absurd hsame (by decide)

end HomeHub.Naming
