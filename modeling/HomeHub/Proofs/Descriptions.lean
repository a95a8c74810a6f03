import HomeHub.Proofs.SourceParts

/-!
# Descriptions

Descriptions of methods and fields go into comments and nowhere else: what is left of a source text
without its comment lines is the same for models that differ in descriptions only.
-/

namespace HomeHub

namespace Source

def isComment (line : String) : Bool :=
  ['/', '/', '/'].isPrefixOf (Text.trimStart line.toList)

def withoutComments (text : String) : String :=
  "\n".intercalate ((sourceLines text).filter fun line => !isComment line)

variable {crates : Crates}

theorem sourceLines_append_newline (text rest : String) :
    sourceLines (text ++ "\n" ++ rest) = sourceLines text ++ sourceLines rest := by
  have hchars : (text ++ "\n" ++ rest).toList = text.toList ++ '\n' :: rest.toList := by simp
  rw [sourceLines, hchars, List.splitOn_append_cons_self, List.map_append]
  rfl

theorem sourceLines_join (lines : List String) :
    sourceLines (String.join (lines.map (· ++ "\n"))) = lines.flatMap sourceLines ++ [""] := by
  induction lines with
  | nil => rfl
  | cons line rest ih =>
    rw [List.map_cons, String.join_cons, sourceLines_append_newline, ih, List.flatMap_cons,
      List.append_assoc]

theorem isComment_commentLine (depth : Nat) (text : String) :
    isComment (commentLine depth text) = true := by
  have hindent (rest : String) :
      Text.trimStart (indent depth ++ rest).toList = Text.trimStart rest.toList := by
    have hblank : ∀ c ∈ (indent depth).toList, Text.isBlank c = true := by
      intro c hc
      rw [indent, String.toList_ofList] at hc
      rw [List.eq_of_mem_replicate hc]
      decide
    rw [String.toList_append, Text.trimStart, List.dropWhile_append_of_pos hblank]
    rfl
  rw [isComment, commentLine, hindent]
  split
  · decide
  · rw [String.toList_append]
    exact List.isPrefixOf_iff_prefix.2 (List.prefix_append ['/', '/', '/'] (' ' :: text.toList))

/-- What a piece leaves in a text once its comment lines are deleted. A line of code is more than one
line of the text where its names have line feeds. -/
def remaining (crates : Crates) (piece : Piece) : List String :=
  ((piece.lines crates).flatMap sourceLines).filter fun line => !isComment line

theorem remaining_comment (depth : Nat) (text : String) :
    remaining crates (.comment depth text) = [] := by
  refine List.filter_eq_nil_iff.2 (List.forall_mem_flatMap.2 (List.forall_mem_map.2 ?_))
  intro line hl row hr
  have hone : '\n' ∉ (commentLine depth (String.ofList (Text.trimEnd line))).toList :=
    (lacks_commentLine (.inl rfl)).2 (.ofList (newline_notMem_trimEnd hl))
  rw [sourceLines, List.splitOn_eq_singleton hone, List.map_singleton, String.ofList_toList,
    List.mem_singleton] at hr
  rw [hr, isComment_commentLine]
  decide

theorem withoutComments_textOf (pieces : List Piece) : withoutComments (textOf crates pieces) =
    "\n".intercalate ((pieces.filter Piece.isCode).flatMap (remaining crates) ++ [""]) := by
  have hcode : (pieces.filter Piece.isCode).flatMap (remaining crates) =
      pieces.flatMap (remaining crates) := by
    induction pieces with
    | nil => rfl
    | cons piece rest ih =>
      cases piece with
      | comment depth text =>
        rw [List.filter_cons_of_neg Bool.false_ne_true, ih, List.flatMap_cons, remaining_comment,
          List.nil_append]
      | _ => rw [List.filter_cons_of_pos rfl, List.flatMap_cons, List.flatMap_cons, ih]
  have hlines : ((pieces.flatMap (Piece.lines crates)).flatMap sourceLines).filter
      (fun line => !isComment line) = pieces.flatMap (remaining crates) := by
    rw [List.flatMap_assoc, List.filter_flatMap]
    rfl
  rw [withoutComments, textOf, sourceLines_join, List.filter_append, hlines, hcode,
    List.filter_cons_of_pos (by decide), List.filter_nil]

end Source

/-- The sources of models that differ in descriptions only differ in comment lines only, whatever the
descriptions and all other texts are. -/
theorem GeneratedModel.withoutComments_renderSource {first second : GeneratedModel}
    (h : first.undescribed = second.undescribed) (crates : Source.Crates) :
    Source.withoutComments (first.renderSource crates) =
      Source.withoutComments (second.renderSource crates) := by
  rw [renderSource, renderSource, Source.withoutComments_textOf, Source.withoutComments_textOf,
    ← Source.filter_modelPieces first, ← Source.filter_modelPieces second, h]

def describedModel (description : Option String) : GeneratedModel := ⟨[
  .serviceGroup ⟨"LightServices", "light",
    [⟨"TurnOn", "turn_on", description, some "LightTurnOnParameters"⟩]⟩,
  .serviceParameters ⟨"LightTurnOnParameters", "light.turn_on",
    [⟨"Color", "color", .string, true, description⟩]⟩,
  .entityExtensions ⟨"LightEntityExtensions", "light", ["LightEntity"],
    [⟨"TurnOn", "turn_on", description, none⟩]⟩]⟩

def hostileDescription : String := "*/ \"\n\x7d\n\r\n  \npub fn on() \x7b\x7d // /// \r"

theorem withoutComments_hostileDescription :
    (describedModel none).undescribed = (describedModel (some hostileDescription)).undescribed ∧
      (describedModel none).renderSource Source.Crates.standard ≠
        (describedModel (some hostileDescription)).renderSource Source.Crates.standard ∧
      Source.withoutComments ((describedModel none).renderSource Source.Crates.standard) =
        Source.withoutComments
          ((describedModel (some hostileDescription)).renderSource Source.Crates.standard) := by
  have undescribed : (describedModel none).undescribed =
      (describedModel (some hostileDescription)).undescribed := rfl
  exact ⟨undescribed, by decide +kernel,
    GeneratedModel.withoutComments_renderSource undescribed Source.Crates.standard⟩

end HomeHub
