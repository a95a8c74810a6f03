import HomeHub.Proofs.SourceParts

/-!
# Carriage returns in generated source

In literals a carriage return is spelled and names have none, so it can only stand in comments. The one
at the end of a line of a comment is trimmed off, together with the blanks there; one that has something
visible behind it in its line is left in the source.
-/

namespace HomeHub

-- ---------------------------------------------------------------------------
-- Lines without the blanks at their ends
-- ---------------------------------------------------------------------------

namespace Text

theorem lines_eq_nil {text : List Char} : lines text = [] ↔ text = [] := by
  fun_cases lines text <;> simp_all

/-- A carriage return with something visible behind it in the same line. -/
def HasBareReturn (text : List Char) : Prop :=
  ∃ before after, text = before ++ '\r' :: after ∧
    ∃ c ∈ after.takeWhile (· != '\n'), isBlank c = false

theorem hasBareReturn_cons {c : Char} {rest : List Char} :
    HasBareReturn (c :: rest) ↔
      (c = '\r' ∧ ∃ d ∈ rest.takeWhile (· != '\n'), isBlank d = false) ∨ HasBareReturn rest := by
  constructor
  · rintro ⟨before, after, heq, hv⟩
    cases before with
    | nil =>
      obtain ⟨rfl, rfl⟩ := List.cons.inj heq
      exact .inl ⟨rfl, hv⟩
    | cons first before =>
      obtain ⟨rfl, rfl⟩ := List.cons.inj heq
      exact .inr ⟨before, after, rfl, hv⟩
  · rintro (⟨rfl, hv⟩ | ⟨before, after, rfl, hv⟩)
    · exact ⟨[], rest, rfl, hv⟩
    · exact ⟨c :: before, after, rfl, hv⟩

theorem return_mem_trimEnd_cons {c : Char} {rest : List Char} :
    '\r' ∈ trimEnd (c :: rest) ↔
      (c = '\r' ∧ ∃ d ∈ rest, isBlank d = false) ∨ '\r' ∈ trimEnd rest := by
  have hreturn : isBlank '\r' = true := by decide
  simp only [trimEnd, List.mem_reverse, List.reverse_cons, List.dropWhile_append, List.isEmpty_iff]
  split
  · -- nothing visible is behind the first character, which is trimmed if it is blank
    rename_i hnone
    have hblank : ∀ d ∈ rest, isBlank d = true := by
      simpa using List.dropWhile_eq_nil_iff.1 hnone
    have hfirst : '\r' ∉ [c].dropWhile isBlank := by
      intro hm
      obtain rfl := List.mem_singleton.1 ((List.dropWhile_sublist _).subset hm)
      simp [hreturn] at hm
    simp only [hfirst, hnone, List.not_mem_nil, or_false, false_iff, not_and, not_exists]
    rintro rfl d hd hv
    exact absurd (hblank d hd) (by simp [hv])
  · rename_i hsome
    have hvisible : ∃ d ∈ rest, isBlank d = false := by
      simpa [List.dropWhile_eq_nil_iff] using hsome
    rw [List.mem_append, List.mem_singleton, and_iff_left hvisible, or_comm, eq_comm]

theorem return_notMem_trimEnd_nil : '\r' ∉ trimEnd [] := by
  simp [trimEnd]

theorem exists_visible_iff {text line : List Char} {others : List (List Char)}
    (h : lines text = line :: others) :
    (∃ c ∈ line, isBlank c = false) ↔ ∃ c ∈ text.takeWhile (· != '\n'), isBlank c = false := by
  have hreturn : isBlank '\r' = true := by decide
  fun_induction lines text generalizing line others with
  | case1 => simp at h
  | case2 rest ih =>
    obtain ⟨rfl, -⟩ := List.cons.inj h
    simp
  | case3 rest ih =>
    obtain ⟨rfl, -⟩ := List.cons.inj h
    simp [hreturn]
  | case4 c rest hn hr hl ih =>
    obtain ⟨rfl, -⟩ := List.cons.inj h
    obtain rfl := lines_eq_nil.1 hl
    rw [List.takeWhile_cons_of_pos (by simpa using hn), List.takeWhile_nil]
  | case5 c rest hn hr first others hl ih =>
    obtain ⟨rfl, -⟩ := List.cons.inj h
    rw [List.takeWhile_cons_of_pos (by simpa using hn)]
    simp only [List.mem_cons, exists_eq_or_imp, ih hl]

theorem exists_return_mem_trimEnd (text : List Char) :
    (∃ line ∈ lines text, '\r' ∈ trimEnd line) ↔ HasBareReturn text := by
  fun_induction lines text with
  | case1 => simp [HasBareReturn]
  | case2 rest ih =>
    simp [hasBareReturn_cons, return_notMem_trimEnd_nil, ih]
  | case3 rest ih =>
    simp [hasBareReturn_cons, return_notMem_trimEnd_nil, ih]
  | case4 c rest hn hr hl ih =>
    obtain rfl := lines_eq_nil.1 hl
    simp [hasBareReturn_cons, return_mem_trimEnd_cons, return_notMem_trimEnd_nil, ← ih, hl]
  | case5 c rest hn hr first others hl ih =>
    rw [hl] at ih
    simp only [List.mem_cons, exists_eq_or_imp] at ih ⊢
    rw [return_mem_trimEnd_cons, hasBareReturn_cons, ← ih, exists_visible_iff hl, or_assoc]

instance (text : List Char) : Decidable (HasBareReturn text) :=
  decidable_of_iff _ (exists_return_mem_trimEnd text)

end Text

-- ---------------------------------------------------------------------------
-- Printed pieces
-- ---------------------------------------------------------------------------

namespace Source

variable {crates : Crates} {pieces : List Piece}

theorem lacks_return_comment {depth : Nat} {text : String} :
    (∀ line ∈ (Piece.comment depth text).lines crates, Lacks '\r' line) ↔
      ¬ Text.HasBareReturn text.toList := by
  have hline (line : List Char) : Lacks '\r' (commentLine depth (String.ofList (Text.trimEnd line))) ↔
      '\r' ∉ Text.trimEnd line := by
    rw [lacks_commentLine (.inr rfl), Lacks, String.toList_ofList]
  rw [← Text.exists_return_mem_trimEnd, Piece.lines, List.forall_mem_map]
  simp only [hline, not_exists, not_and]

theorem Piece.IsLegible.lacks_return_iff {piece : Piece} (h : piece.IsLegible)
    (hp : crates.Lack '\r') : (∀ line ∈ piece.lines crates, Lacks '\r' line) ↔
      ∀ remark ∈ piece.remarks, ¬ Text.HasBareReturn remark.toList := by
  cases piece with
  | code depth fragments =>
    exact iff_of_true (Piece.lacks_code h.worded (.inr rfl) hp) (List.forall_mem_nil _)
  | note text plain => exact iff_of_true (Piece.lacks_note plain (.inr rfl)) (List.forall_mem_nil _)
  | comment depth text => rw [lacks_return_comment, Piece.remarks, List.forall_mem_singleton]

theorem lacks_return_textOf (hp : crates.Lack '\r') (h : ∀ piece ∈ pieces, piece.IsLegible) :
    Lacks '\r' (textOf crates pieces) ↔
      ∀ remark ∈ pieces.flatMap Piece.remarks, ¬ Text.HasBareReturn remark.toList := by
  have hlines : Lacks '\r' (textOf crates pieces) ↔
      ∀ line ∈ pieces.flatMap (Piece.lines crates), Lacks '\r' line := by
    simp [Lacks, toList_textOf]
  rw [hlines, List.forall_mem_flatMap, List.forall_mem_flatMap]
  exact forall₂_congr fun piece hm => (h piece hm).lacks_return_iff hp

end Source

namespace GeneratedModel

variable {schemas : List EntitySchema} {catalog : List ServiceDomain} {model : GeneratedModel}

def HasBareReturn (model : GeneratedModel) : Prop :=
  ∃ definition ∈ model.types, ∃ remark ∈ definition.remarks, Text.HasBareReturn remark.toList

instance (model : GeneratedModel) : Decidable model.HasBareReturn :=
  inferInstanceAs (Decidable (∃ definition ∈ model.types, ∃ remark ∈ definition.remarks,
    Text.HasBareReturn remark.toList))

theorem lacks_return_renderSource (h : generate schemas catalog = .ok model) :
    Source.Lacks '\r' (model.renderSource Source.Crates.standard) ↔ ¬ model.HasBareReturn := by
  have hprint := Source.print_modelPieces Source.Crates.standard (isWorded_of_generate_eq_ok h)
  rw [renderSource, Source.lacks_return_textOf (Source.Crates.lack_standard (.inr rfl))
    hprint.isLegible, hprint.remarks_eq]
  simp only [List.forall_mem_flatMap, HasBareReturn, not_exists, not_and]

/-- A carriage return is left in the source of a model just if it is a bare one in a text that is
commented there: literals and names bring in none. -/
theorem return_mem_renderSource_iff (schemas : List EntitySchema) (catalog : List ServiceDomain)
    (model : GeneratedModel) (h : generate schemas catalog = .ok model) :
    '\r' ∈ (model.renderSource Source.Crates.standard).toList ↔ model.HasBareReturn :=
  not_iff_not.1 (lacks_return_renderSource h)

def pastedCatalog : List ServiceDomain := [
  ⟨"light", [⟨"turn_on", some "On.\r\n\r\nPasted \r\ntext.\r",
    [⟨"color\rname", none, true, some "As text.\r\n"⟩]⟩]⟩]

theorem return_notMem_pastedCatalog : ∃ model, generate [] pastedCatalog = .ok model ∧
    '\r' ∉ (model.renderSource Source.Crates.standard).toList := by
  have hclean : (generate [] pastedCatalog).map (fun model => decide model.HasBareReturn) =
      .ok false := by
    decide +kernel
  obtain ⟨model, hg, hn⟩ := map_result_eq_ok.1 hclean
  exact ⟨model, hg, fun hm =>
    of_decide_eq_false hn ((return_mem_renderSource_iff [] pastedCatalog model hg).1 hm)⟩

def bareCatalog : List ServiceDomain := [⟨"d", [⟨"s", some "a\rb", []⟩]⟩]

theorem return_mem_bareCatalog : ∃ model, generate [] bareCatalog = .ok model ∧
    '\r' ∈ (model.renderSource Source.Crates.standard).toList := by
  have hbare : (generate [] bareCatalog).map (fun model => decide model.HasBareReturn) =
      .ok true := by
    decide +kernel
  obtain ⟨model, hg, hb⟩ := map_result_eq_ok.1 hbare
  refine ⟨model, hg, ?_⟩
  by_contra hm
  exact (lacks_return_renderSource hg).1 hm (of_decide_eq_true hb)

end GeneratedModel

end HomeHub
