import HomeHub.Proofs.Literals
import HomeHub.Proofs.SourceParts

/-!
# Literals of generated source

Which string literals stand in the source of a model, in order: texts of the hub as they are, and a few
that the printer brings in. Names and comments start no literal.
-/

namespace HomeHub

namespace Source

def HoldAll (crates : Crates) (pieces : List Piece) (texts : List String) : Prop :=
  Holds false false (textOf crates pieces) texts

/-- Paths of crates that neither start a literal nor end one. -/
structure Crates.AreInert (crates : Crates) : Prop where
  app : IsInert crates.app
  domain : IsInert crates.domain
  verbatim : IsVerbatim crates.domain

theorem Crates.areInert_standard : Crates.standard.AreInert :=
  ⟨.ofList rfl, .ofList rfl, .ofList rfl⟩

variable {crates : Crates}

theorem IsWord.isInert {text : String} (h : IsWord text) : IsInert text := by
  intro c hm hin
  rcases h c hm with hc | rfl | rfl
  · simp only [List.mem_cons, List.not_mem_nil, or_false] at hin
    rcases hin with rfl | rfl | rfl <;> simp at hc
  · simp at hin
  · simp at hin

-- ---------------------------------------------------------------------------
-- Lines of code
-- ---------------------------------------------------------------------------

theorem opensBehind_of_opens {text : String} {plain : IsPlain text} (opens : Bool)
    (h : (Fragment.fixed text plain).opens = true) : opensBehind opens text = true := by
  obtain ⟨c, hc, hopen⟩ := (Option.any_eq_true _ _).1 h
  obtain ⟨front, hfront⟩ := List.getLast?_eq_some_iff.1 hc
  rw [opensBehind, hfront, List.foldl_append]
  exact hopen

theorem Fragment.holds (hc : crates.AreInert) {fragment : Fragment} {opens : Bool}
    (hw : ∀ name ∈ fragment.name?, IsWord name) (ho : fragment.isOpened opens = true) :
    ∃ closes, Holds opens closes (fragment.text crates) (fragment.literals crates) ∧
      (fragment.opens = true → closes = true) := by
  cases fragment with
  | fixed text plain => exact ⟨_, plain.isInert.holds opens, opensBehind_of_opens opens⟩
  | staticReference => exact ⟨true, .ofList fun _ => rfl, fun _ => rfl⟩
  | elidedLifetime => exact ⟨false, .ofList fun _ => rfl, fun h => nomatch h⟩
  | name text => exact ⟨_, (hw text rfl).isInert.holds opens, fun h => nomatch h⟩
  | item crate path plain =>
    have hpath : IsInert (crates.path crate) := by
      cases crate with
      | app => exact hc.app
      | domain => exact hc.domain
    exact ⟨_, (hpath.holds opens).append (plain.isInert.holds _), fun h => nomatch h⟩
  | literal text =>
    obtain rfl : opens = true := ho
    exact ⟨false, holds_quoted text, fun h => nomatch h⟩
  | function path plain =>
    obtain rfl : opens = true := ho
    have hliteral := holds_literal (spells_verbatim (hc.verbatim.append plain.isVerbatim))
    have hquotes : "\"" ++ crates.domain ++ path ++ "\"" =
        String.ofList ('"' :: (crates.domain ++ path).toList ++ ['"']) := String.ext (by simp)
    refine ⟨false, ?_, fun h => nomatch h⟩
    rwa [Fragment.text, hquotes]

theorem holds_join (hc : crates.AreInert) {fragments : List Fragment} {assumed opens : Bool}
    (hw : ∀ fragment ∈ fragments, ∀ name ∈ fragment.name?, IsWord name)
    (ho : areOpened assumed fragments = true) (ha : assumed = true → opens = true) :
    ∃ closes, Holds opens closes (String.join (fragments.map (Fragment.text crates)))
      (fragments.flatMap (Fragment.literals crates)) := by
  induction fragments generalizing assumed opens with
  | nil => exact ⟨opens, .ofList fun _ => rfl⟩
  | cons fragment rest ih =>
    obtain ⟨hword, hwords⟩ := List.forall_mem_cons.1 hw
    obtain ⟨hfirst, hrest⟩ := Bool.and_eq_true_iff.1 ho
    have hopened : fragment.isOpened opens = true := by
      cases fragment with
      | literal text => exact ha hfirst
      | function path plain => exact ha hfirst
      | _ => rfl
    obtain ⟨between, hholds, hopens⟩ := Fragment.holds hc hword hopened
    obtain ⟨closes, hlater⟩ := ih hwords hrest hopens
    rw [List.map_cons, String.join_cons]
    exact ⟨closes, hholds.append hlater⟩

theorem holds_indent (depth : Nat) : Holds false (0 < depth) (indent depth) [] := by
  have hbehind : opensBehind false (indent depth) = decide (0 < depth) := by
    cases depth with
    | zero => rfl
    | succ depth =>
      rw [opensBehind, indent, String.toList_ofList, Nat.mul_succ, List.replicate_add,
        List.foldl_append]
      rfl
  exact hbehind ▸ (isInert_indent depth).holds false

-- ---------------------------------------------------------------------------
-- Pieces
-- ---------------------------------------------------------------------------

theorem Holds.newline {text : String} {texts : List String} {closes : Bool}
    (h : Holds false closes text texts) : Holds false false (text ++ "\n") texts := by
  have hbreak : Holds closes false "\n" [] := .ofList fun _ => rfl
  exact List.append_nil texts ▸ h.append hbreak

theorem holds_commentLine (depth : Nat) {text : String} (h : Lacks '\n' text) :
    Holds false false (commentLine depth text ++ "\n") [] := by
  rw [commentLine, String.append_assoc]
  refine (holds_indent depth).append ?_
  split
  · exact holds_comment (by decide) _
  · have hmark : "/// " ++ text = String.ofList ('/' :: '/' :: '/' :: ' ' :: text.toList) :=
      String.ext (by simp)
    rw [hmark]
    exact holds_comment (by simpa [Lacks] using h) _

theorem holds_of_comments {lines : List String}
    (h : ∀ line ∈ lines, Holds false false (line ++ "\n") []) :
    Holds false false (String.join (lines.map (· ++ "\n"))) [] := by
  induction lines with
  | nil => exact .ofList fun _ => rfl
  | cons line rest ih =>
    obtain ⟨hline, hrest⟩ := List.forall_mem_cons.1 h
    rw [List.map_cons, String.join_cons]
    exact hline.append (ih hrest)

theorem Piece.IsLegible.holdAll {piece : Piece} (h : piece.IsLegible) (hc : crates.AreInert) :
    HoldAll crates [piece] (piece.literals crates) := by
  rw [HoldAll, textOf, List.flatMap_singleton]
  cases piece with
  | code depth fragments =>
    obtain ⟨closes, hholds⟩ := holds_join hc (Piece.forall_mem_names.1 h.worded) h.opened id
    simpa [Piece.lines, Piece.literals] using ((holds_indent depth).append hholds).newline
  | note text plain =>
    have hmark : "// " ++ text = String.ofList ('/' :: '/' :: ' ' :: text.toList) :=
      String.ext (by simp)
    have hline : Holds false false ("// " ++ text ++ "\n") [] := by
      rw [hmark]
      exact holds_comment (by simpa [Lacks] using plain.lacks (.inl rfl)) _
    exact holds_of_comments (List.forall_mem_singleton.2 hline)
  | comment depth text =>
    refine holds_of_comments (List.forall_mem_map.2 fun line hl => ?_)
    exact holds_commentLine depth (.ofList (newline_notMem_trimEnd hl))

theorem holdAll_of_isLegible (hc : crates.AreInert) {pieces : List Piece}
    (h : ∀ piece ∈ pieces, piece.IsLegible) :
    HoldAll crates pieces (pieces.flatMap (Piece.literals crates)) := by
  induction pieces with
  | nil => exact .ofList fun _ => rfl
  | cons piece rest ih =>
    obtain ⟨hpiece, hrest⟩ := List.forall_mem_cons.1 h
    have htext := textOf_append crates [piece] rest
    rw [HoldAll, ← List.singleton_append, htext]
    exact Holds.append (hpiece.holdAll hc) (ih hrest)

theorem Print.holdAll {pieces : List Piece} {literals remarks : List String}
    (h : Print crates pieces literals remarks) (hc : crates.AreInert) :
    HoldAll crates pieces literals :=
  h.literals_eq ▸ holdAll_of_isLegible hc h.isLegible

theorem exists_literals_of_holdAll {pieces : List Piece} {texts : List String}
    (h : HoldAll crates pieces texts) :
    ∃ bodies, literals? (textOf crates pieces) = some bodies ∧
      List.Forall₂ Spells bodies texts := by
  obtain ⟨bodies, hspells, hread⟩ := h
  exact ⟨bodies, by rw [literals?, hread, Option.bind_some, List.nil_append], hspells⟩

end Source

namespace GeneratedModel

/-- The string literals in the source of a model are those that the printer puts there, in its order,
and each of them is read back as the text that it was printed for. -/
theorem exists_literals_renderSource {schemas : List EntitySchema} {catalog : List ServiceDomain}
    {model : GeneratedModel} (h : generate schemas catalog = .ok model) {crates : Source.Crates}
    (hc : crates.AreInert) :
    ∃ bodies, Source.literals? (model.renderSource crates) = some bodies ∧
      List.Forall₂ Source.Spells bodies (model.types.flatMap (TypeDefinition.literals crates)) := by
  have hprint := Source.print_modelPieces crates (isWorded_of_generate_eq_ok h)
  exact Source.exists_literals_of_holdAll (hprint.holdAll hc)

/-- Quotes, backslashes and what looks like a comment, a NUL before a digit, a combining character and
some that have no visible form. -/
def oddSchemas : List EntitySchema := [
  ⟨"light", false, [⟨"light.\"a\" // \\", none, []⟩], [⟨"\x00\x31e\u0301\u200b\x1b", .string⟩]⟩]

def oddCatalog : List ServiceDomain := [
  ⟨"light", [⟨"turn'\r\n\ton", some "\"On\" // \\",
    [⟨"\\u\x7b0\x7d\\", none, false, some "\""⟩]⟩]⟩]

def oddLiterals : List String := ["Entities", "LightEntities", "Services", "LightServices",
  "light.\"a\" // \\", "LightEntity", "\x00\x31e\u0301\u200b\x1b",
  "hubkit_domain::state::lenient_field", "light", "turn'\r\n\ton", "\\u\x7b0\x7d\\",
  "Option::is_none", "light.turn'\r\n\ton"]

theorem exists_literals_oddCatalog : ∃ model, generate oddSchemas oddCatalog = .ok model ∧
    model.types.flatMap (TypeDefinition.literals Source.Crates.standard) = oddLiterals ∧
    ∃ bodies, Source.literals? (model.renderSource Source.Crates.standard) = some bodies ∧
      List.Forall₂ Source.Spells bodies oddLiterals := by
  have hliterals : (generate oddSchemas oddCatalog).map (fun model =>
      model.types.flatMap (TypeDefinition.literals Source.Crates.standard)) = .ok oddLiterals := by
    decide +kernel
  obtain ⟨model, hg, hl⟩ := map_result_eq_ok.1 hliterals
  exact ⟨model, hg, hl, hl ▸ exists_literals_renderSource hg Source.Crates.areInert_standard⟩

end GeneratedModel

end HomeHub
