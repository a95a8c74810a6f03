import HomeHub.Proofs.SourceText

/-!
# Public code

What a definition looks like in source: one line of public code at the margin opens it, and in a
record there is one public line for each field, up to the brace that closes it.
-/

namespace HomeHub

namespace Source

/-- The lines of public code at the margin, each with what stands below it up to the next closing
brace at the margin. -/
def publicBlocks : List String → List (String × List String)
  | [] => []
  | line :: rest =>
    if line.startsWith "pub " then (line, rest.takeWhile (· != "\x7d")) :: publicBlocks rest
    else publicBlocks rest

def fieldText (field : FieldDefinition) : String :=
  "    pub " ++ memberName field.identifier ++ ": Option<" ++ fieldType field.fieldType ++ ">,"

theorem map_fst_publicBlocks (lines : List String) :
    (publicBlocks lines).map Prod.fst = lines.filter (·.startsWith "pub ") := by
  induction lines with
  | nil => rfl
  | cons line rest ih =>
    unfold publicBlocks
    split
    · rename_i hp
      rw [List.map_cons, ih, List.filter_cons, if_pos hp]
    · rename_i hp
      rw [ih, List.filter_cons, if_neg hp]

theorem publicBlocks_append {lines : List String}
    (h : ∀ line ∈ lines, line.startsWith "pub " = false) (rest : List String) :
    publicBlocks (lines ++ rest) = publicBlocks rest := by
  induction lines with
  | nil => rfl
  | cons line others ih =>
    obtain ⟨hl, ho⟩ := List.forall_mem_cons.1 h
    rw [List.cons_append, publicBlocks, hl, if_neg Bool.false_ne_true, ih ho]

end Source

namespace TypeDefinition

def fields? : TypeDefinition → Option (List FieldDefinition)
  | .attributeRecord d => some d.fields
  | .serviceParameters d => some d.fields
  | _ => none

def IsOpenedBy : TypeDefinition → String → Prop
  | .registration _, line => line.startsWith "pub fn registered_types" = true
  | .rootEntities d, line => line = "pub struct " ++ d.name ++ "<B> \x7b"
  | .domainEntities d, line => line = "pub struct " ++ d.name ++ "<B> \x7b"
  | .entity d, line => line.startsWith ("pub struct " ++ d.name ++ "<B>(pub") = true
  | .attributeRecord d, line => line = "pub struct " ++ d.name ++ " \x7b"
  | .rootServices d, line => line = "pub struct " ++ d.name ++ "<B> \x7b"
  | .serviceGroup d, line => line = "pub struct " ++ d.name ++ "<B> \x7b"
  | .serviceParameters d, line => line = "pub struct " ++ d.name ++ " \x7b"
  | .entityExtensions d, line => line = "pub trait " ++ d.name ++ " \x7b"

/-- The public lines inside a record are those of its fields. -/
def HasFieldsIn (definition : TypeDefinition) (block : List String) : Prop :=
  ∀ fields, definition.fields? = some fields →
    block.filter (·.startsWith "    pub ") = fields.map Source.fieldText

theorem hasFieldsIn_of_fields?_eq_none {definition : TypeDefinition} (h : definition.fields? = none)
    (block : List String) : definition.HasFieldsIn block := by
  intro fields hf
  simp [h] at hf

end TypeDefinition

namespace Source

variable {crates : Crates}

-- ---------------------------------------------------------------------------
-- Pieces that are not public code
-- ---------------------------------------------------------------------------

theorem startsWith_append {first beginning : String} (h : first.startsWith beginning = true)
    (second : String) : (first ++ second).startsWith beginning = true := by
  rw [String.startsWith_string_iff] at h ⊢
  rw [String.toList_append]
  exact h.trans (List.prefix_append _ _)

theorem startsWith_ofList {beginning text : List Char} (h : beginning <+: text) :
    (String.ofList text).startsWith (String.ofList beginning) = true := by
  rwa [String.startsWith_string_iff, String.toList_ofList, String.toList_ofList]

/-- Public code starts with a `p`. -/
theorem startsWith_pub_eq_false {text : String} (h : text.toList.head? ≠ some 'p') :
    text.startsWith "pub " = false := by
  rw [String.startsWith_string_eq_false_iff]
  rintro ⟨rest, hrest⟩
  rw [← hrest] at h
  exact h rfl

theorem startsWith_code_one (text : String) :
    (indent 1 ++ text).startsWith "    pub " = text.startsWith "pub " := by
  have hindent : (indent 1).toList = [' ', ' ', ' ', ' '] := by decide
  rw [Bool.eq_iff_iff, String.startsWith_string_iff, String.startsWith_string_iff,
    String.toList_append, hindent]
  exact List.prefix_append_right_inj [' ', ' ', ' ', ' ']

theorem head?_indent_append (depth : Nat) (text : String) :
    (indent (depth + 1) ++ text).toList.head? = some ' ' := by
  simp [indent, Nat.mul_add, List.replicate_succ]

theorem indent_zero_append (text : String) : indent 0 ++ text = text := by
  simp [indent]

theorem head?_commentMark (text : String) :
    (if text.isEmpty then "///" else "/// " ++ text).toList.head? = some '/' := by
  split <;> simp

def isLed : List Fragment → Bool
  | .fixed text _ :: _ => text.toList.head?.any (· != 'p')
  | _ => false

theorem head?_of_isLed {fragments : List Fragment} (h : isLed fragments = true) :
    (String.join (fragments.map (Fragment.text crates))).toList.head? ≠ some 'p' := by
  unfold isLed at h
  split at h
  · rename_i text plain rest
    obtain ⟨c, hc, hne⟩ := (Option.any_eq_true _ _).1 h
    rw [List.map_cons, String.join_cons, Fragment.text, String.toList_append, List.head?_append, hc]
    simpa using hne
  · cases h

namespace Piece

def isQuiet : Piece → Bool
  | .code 0 fragments => fragments.isEmpty || isLed fragments
  | _ => true

def isAside : Piece → Bool
  | .code 1 fragments => isLed fragments
  | .comment 1 _ => true
  | _ => false

variable {piece : Piece}

theorem startsWith_of_isQuiet (h : piece.isQuiet = true) :
    ∀ line ∈ piece.lines crates, line.startsWith "pub " = false := by
  cases piece with
  | note text plain =>
    refine List.forall_mem_singleton.2 (startsWith_pub_eq_false ?_)
    simp
  | comment depth text =>
    refine List.forall_mem_map.2 fun line _ => startsWith_pub_eq_false ?_
    cases depth with
    | zero =>
      rw [commentLine, indent_zero_append, head?_commentMark]
      decide
    | succ depth =>
      rw [commentLine, head?_indent_append]
      decide
  | code depth fragments =>
    refine List.forall_mem_singleton.2 (startsWith_pub_eq_false ?_)
    cases depth with
    | zero =>
      rw [indent_zero_append]
      rcases Bool.or_eq_true_iff.1 h with h | h
      · obtain rfl := List.isEmpty_iff.1 h
        simp
      · exact head?_of_isLed h
    | succ depth =>
      rw [head?_indent_append]
      decide

theorem startsWith_of_isAside (h : piece.isAside = true) :
    ∀ line ∈ piece.lines crates, line.startsWith "    pub " = false ∧ line ≠ "\x7d" := by
  have hclosing {text : String} : indent 1 ++ text ≠ "\x7d" := by
    intro heq
    have hhead := head?_indent_append 0 text
    rw [heq] at hhead
    exact absurd hhead (by decide)
  unfold isAside at h
  split at h
  · rename_i fragments
    refine List.forall_mem_singleton.2 ⟨?_, hclosing⟩
    exact (startsWith_code_one _).trans (startsWith_pub_eq_false (head?_of_isLed h))
  · rename_i text
    refine List.forall_mem_map.2 fun line _ => ⟨?_, hclosing⟩
    refine (startsWith_code_one _).trans (startsWith_pub_eq_false ?_)
    rw [head?_commentMark]
    decide
  · cases h

end Piece

theorem isQuiet_of_isAside {piece : Piece} (h : piece.isAside = true) : piece.isQuiet = true := by
  unfold Piece.isAside at h
  split at h
  · rfl
  · rfl
  · cases h

theorem publicBlocks_of_isQuiet {pieces : List Piece} (h : ∀ piece ∈ pieces, piece.isQuiet = true)
    (rest : List String) :
    publicBlocks (pieces.flatMap (Piece.lines crates) ++ rest) = publicBlocks rest :=
  publicBlocks_append (List.forall_mem_flatMap.2 fun piece hm =>
    Piece.startsWith_of_isQuiet (h piece hm)) rest

-- ---------------------------------------------------------------------------
-- Records
-- ---------------------------------------------------------------------------

theorem lines_code_zero (fragments : List Fragment) : (Piece.code 0 fragments).lines crates =
    [String.join (fragments.map (Fragment.text crates))] := by
  rw [Piece.lines, indent_zero_append]

theorem startsWith_fieldText (field : FieldDefinition) :
    (fieldText field).startsWith "    pub " = true := by
  unfold fieldText
  iterate 4 refine startsWith_append ?_ _
  exact startsWith_ofList (by decide)

section
variable {asides : FieldDefinition → List Piece} {fields : List FieldDefinition}

def recordLines (crates : Crates) (asides : FieldDefinition → List Piece)
    (fields : List FieldDefinition) : List String :=
  fields.flatMap fun field => (asides field).flatMap (Piece.lines crates) ++ [fieldText field]

theorem filter_recordLines (h : ∀ field ∈ fields, ∀ piece ∈ asides field, piece.isAside = true) :
    (recordLines crates asides fields).filter (·.startsWith "    pub ") = fields.map fieldText := by
  induction fields with
  | nil => rfl
  | cons field rest ih =>
    obtain ⟨hf, hr⟩ := List.forall_mem_cons.1 h
    have hasides : ((asides field).flatMap (Piece.lines crates)).filter (·.startsWith "    pub ") =
        [] := by
      refine List.filter_eq_nil_iff.2 (List.forall_mem_flatMap.2 fun piece hm line hl => ?_)
      simp [(Piece.startsWith_of_isAside (hf piece hm) line hl).1]
    rw [recordLines, List.flatMap_cons, ← recordLines, List.filter_append, List.filter_append,
      hasides, ih hr, List.filter_cons, if_pos (startsWith_fieldText field)]
    rfl

theorem ne_closing_of_mem_recordLines
    (h : ∀ field ∈ fields, ∀ piece ∈ asides field, piece.isAside = true) :
    ∀ line ∈ recordLines crates asides fields, (line != "\x7d") = true := by
  refine List.forall_mem_flatMap.2 fun field hf => List.forall_mem_append.2 ⟨?_, ?_⟩
  · exact List.forall_mem_flatMap.2 fun piece hm line hl =>
      bne_iff_ne.2 (Piece.startsWith_of_isAside (h field hf piece hm) line hl).2
  · refine List.forall_mem_singleton.2 (bne_iff_ne.2 fun heq => ?_)
    have hstart := startsWith_fieldText field
    rw [heq] at hstart
    exact absurd hstart (by decide)

end

end Source

-- ---------------------------------------------------------------------------
-- Blocks of definitions
-- ---------------------------------------------------------------------------

namespace TypeDefinition

variable {crates : Source.Crates} {definition : TypeDefinition} {pieces front back : List Source.Piece}
  {opening : Source.Piece} {line : String}

/-- Pieces that are one block of public code, which opens a definition and has its fields. -/
def IsBlockOf (crates : Source.Crates) (definition : TypeDefinition) (pieces : List Source.Piece) :
    Prop :=
  ∀ rest, ∃ block, definition.IsOpenedBy block.1 ∧ definition.HasFieldsIn block.2 ∧
    Source.publicBlocks (pieces.flatMap (Source.Piece.lines crates) ++ rest) =
      block :: Source.publicBlocks rest

theorem IsOpenedBy.startsWith (h : definition.IsOpenedBy line) : line.startsWith "pub " = true := by
  have hprefix {beginning : String} (hb : beginning.startsWith "pub " = true)
      (hl : line.startsWith beginning = true) : line.startsWith "pub " = true := by
    rw [String.startsWith_string_iff] at hb hl ⊢
    exact hb.trans hl
  cases definition with
  | registration d => exact hprefix (Source.startsWith_ofList (by decide)) h
  | entity d =>
    refine hprefix ?_ h
    iterate 2 refine Source.startsWith_append ?_ _
    exact Source.startsWith_ofList (by decide)
  | _ =>
    obtain rfl := h
    iterate 2 refine Source.startsWith_append ?_ _
    exact Source.startsWith_ofList (by decide)

theorem isBlockOf (hp : pieces = front ++ opening :: back)
    (hf : ∀ piece ∈ front, piece.isQuiet = true) (hl : opening.lines crates = [line])
    (ho : definition.IsOpenedBy line) (hb : ∀ piece ∈ back, piece.isQuiet = true)
    (hfields : ∀ rest, definition.HasFieldsIn
      ((back.flatMap (Source.Piece.lines crates) ++ rest).takeWhile (· != "\x7d"))) :
    definition.IsBlockOf crates pieces := by
  subst hp
  intro rest
  refine ⟨(line, (back.flatMap (Source.Piece.lines crates) ++ rest).takeWhile (· != "\x7d")), ho,
    hfields rest, ?_⟩
  rw [List.flatMap_append, List.append_assoc, Source.publicBlocks_of_isQuiet hf, List.flatMap_cons,
    hl, List.append_assoc, List.singleton_append, Source.publicBlocks, if_pos ho.startsWith,
    Source.publicBlocks_of_isQuiet hb]

end TypeDefinition

end HomeHub
