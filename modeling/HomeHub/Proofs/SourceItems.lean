import HomeHub.Proofs.SourceParts

/-!
# Items of generated source

In the source of whatever is generated the public code at the margin is one line a definition, in
the order of the model, and the fields of a record are one line each. No text of the hub brings in
more of them.
-/

namespace HomeHub

theorem Source.publicBlocks_modelPieces (crates : Source.Crates) (types : List TypeDefinition) :
    List.Forall₂ (fun definition block => definition.IsOpenedBy block.1 ∧
        definition.HasFieldsIn block.2) types
      (Source.publicBlocks
        ((Source.modelPieces ⟨types⟩).flatMap (Source.Piece.lines crates) ++ [""])) := by
  have hblank (lines : List String) : Source.publicBlocks
      ([Source.Piece.blank].flatMap (Source.Piece.lines crates) ++ lines) =
        Source.publicBlocks lines :=
    Source.publicBlocks_of_isQuiet (List.all_eq_true.1 rfl) lines
  rw [Source.modelPieces, List.flatMap_append, List.append_assoc,
    Source.publicBlocks_of_isQuiet Source.isQuiet_head]
  induction types with
  | nil => exact .nil
  | cons definition rest ih =>
    obtain ⟨block, ho, hf, hb⟩ := Source.isBlockOf_definitionPieces crates definition
      ((rest.flatMap fun other => .blank :: Source.definitionPieces other).flatMap
        (Source.Piece.lines crates) ++ [""])
    -- the blank line in front of a definition is passed over
    have hskip := (hblank _).trans hb
    rw [List.flatMap_cons, List.flatMap_append, List.append_assoc]
    exact hskip ▸ .cons ⟨ho, hf⟩ ih

namespace GeneratedModel

/-- In a source text the public code at the margin is one line for each definition of a model, in
order, and inside a record the public lines are its fields, in order. -/
structure IsWrittenIn (model : GeneratedModel) (text : String) : Prop where
  openings : List.Forall₂ TypeDefinition.IsOpenedBy model.types
    ((Source.sourceLines text).filter (·.startsWith "pub "))
  fields : List.Forall₂ TypeDefinition.HasFieldsIn model.types
    ((Source.publicBlocks (Source.sourceLines text)).map Prod.snd)

/-- No text of the hub is read as code of the source it is written into. -/
theorem isWrittenIn_of_generate_eq_ok (schemas : List EntitySchema) (catalog : List ServiceDomain)
    (model : GeneratedModel) (h : generate schemas catalog = .ok model) :
    model.IsWrittenIn (model.renderSource Source.Crates.standard) := by
  have hprint := Source.print_modelPieces Source.Crates.standard (isWorded_of_generate_eq_ok h)
  have hlines := Source.sourceLines_textOf (Source.Crates.lack_standard (.inl rfl)) hprint.isLegible
  have hblocks := Source.publicBlocks_modelPieces Source.Crates.standard model.types
  rw [← hlines] at hblocks
  constructor
  case openings =>
    rw [← Source.map_fst_publicBlocks]
    exact List.forall₂_map_right_iff.2 (hblocks.imp fun _ _ h => h.1)
  case fields => exact List.forall₂_map_right_iff.2 (hblocks.imp fun _ _ h => h.2)

def hostileSchemas : List EntitySchema := [
  ⟨"light\npub struct Light \x7b", false, [⟨"light.a\"\n    pub a: u8,\n*/ //", none, []⟩],
    [⟨"effect\\\", default)]\n\x7d\n    pub effect", .string⟩]⟩]

def hostileCatalog : List ServiceDomain := [
  ⟨"light\npub struct Light \x7b",
    [⟨"turn\npub fn turn() \x7b\x7d\n//", some "On.\n\npub fn on() \x7b\x7d\r\n  \r\n*/ pub",
      [⟨"color\\\"\n", none, true, some "pub color\n    pub color\n\x7d"⟩]⟩]⟩]

theorem isWrittenIn_hostile : ∃ model, generate hostileSchemas hostileCatalog = .ok model ∧
    model.IsWrittenIn (model.renderSource Source.Crates.standard) := by
  have hok : (generate hostileSchemas hostileCatalog).isOk = true := by decide +kernel
  cases h : generate hostileSchemas hostileCatalog with
  | error error => rw [h] at hok; cases hok
  | ok model => exact ⟨model, rfl, isWrittenIn_of_generate_eq_ok _ _ _ h⟩

end GeneratedModel

end HomeHub
