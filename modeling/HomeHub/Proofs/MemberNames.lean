import HomeHub.Proofs.Coherence
import HomeHub.Proofs.Identifiers
import HomeHub.Source.Member

/-!
# Member names

An identifier can be read back from its member name, so members that differ in a model differ in
the source. A member name is legal: it is no keyword, or it is marked as a name.
-/

namespace HomeHub

namespace Source

-- ---------------------------------------------------------------------------
-- Reading back
-- ---------------------------------------------------------------------------

/-- The words behind a text in lower case. Only an underscore before a lower-case letter is one
that starts a word. -/
def wordsOf : List Char → List Char
  | [] => []
  | '_' :: c :: rest => if c.isLower then c.toUpper :: wordsOf rest else '_' :: c :: wordsOf rest
  | c :: rest => c :: wordsOf rest

/-- The spelling behind a member name: what is behind the mark of a keyword, or in front of the
underscore of one that cannot be marked. -/
def unmarked : List Char → List Char
  | 'r' :: '#' :: rest => rest
  | name => if name.getLast? = some '_' then name.dropLast else name

def identifierOf (name : String) : String :=
  String.ofList (match unmarked name.toList with
    | [] => []
    | c :: rest => c.toUpper :: wordsOf rest)

theorem wordsOf_cons {c : Char} (h : c ≠ '_') (rest : List Char) :
    wordsOf (c :: rest) = c :: wordsOf rest := by
  rw [wordsOf]
  exact fun _ _ heq => absurd heq h

theorem ne_underscore {c : Char} (h : c.isAlphanum = true) : c ≠ '_' := by
  rintro rfl
  exact absurd h (by decide)

theorem snakeChars_of_isUpper {c : Char} (h : c.isUpper = true) {previous : Char} (hp : previous ≠ '_')
    (rest : List Char) :
    snakeChars (some previous) (c :: rest) = '_' :: c.toLower :: snakeChars (some c) rest := by
  simp [snakeChars, h, hp]

theorem snakeChars_of_not_isUpper {c : Char} (h : c.isUpper = false) (previous : Option Char)
    (rest : List Char) : snakeChars previous (c :: rest) = c :: snakeChars (some c) rest := by
  simp [snakeChars, h]

theorem toUpper_toLower_of_isUpper {c : Char} (h : c.isUpper = true) : c.toLower.toUpper = c := by
  rw [Char.toUpper_toLower_eq_toUpper, Char.toUpper_eq_of_not_isLower (Char.not_isLower_of_isUpper h)]

theorem isLower_toLower_of_isUpper {c : Char} (h : c.isUpper = true) : c.toLower.isLower = true := by
  simp [Char.isAlpha, h]

theorem wordsOf_snakeChars {text : List Char} (h : Naming.IsTail text) {previous : Char}
    (hp : previous ≠ '_') : wordsOf (snakeChars (some previous) text) = text := by
  induction h generalizing previous with
  | nil => rfl
  | @char c rest hc _ ih =>
    have hne := ne_underscore hc
    by_cases hu : c.isUpper = true
    · rw [snakeChars_of_isUpper hu hp, wordsOf, if_pos (isLower_toLower_of_isUpper hu),
        toUpper_toLower_of_isUpper hu, ih hne]
    · rw [snakeChars_of_not_isUpper (by simpa using hu), wordsOf_cons hne, ih hne]
  | @number d rest hd _ ih =>
    have hne := ne_underscore (Naming.isAlphanum_of_isDigit hd)
    rw [snakeChars_of_not_isUpper rfl,
      snakeChars_of_not_isUpper (Naming.isUpper_eq_false_of_isDigit hd), wordsOf,
      if_neg (by simp [Naming.isLower_eq_false_of_isDigit hd]), ih hne]

inductive IsSnakeTail : List Char → Prop where
  | nil : IsSnakeTail []
  | char {c : Char} {rest : List Char} (hc : c.isLower = true ∨ c.isDigit = true)
      (hr : IsSnakeTail rest) : IsSnakeTail (c :: rest)
  | word {c : Char} {rest : List Char} (hc : c.isLower = true ∨ c.isDigit = true)
      (hr : IsSnakeTail rest) : IsSnakeTail ('_' :: c :: rest)

theorem isSnakeTail_snakeChars {text : List Char} (h : Naming.IsTail text) {previous : Char}
    (hp : previous ≠ '_') : IsSnakeTail (snakeChars (some previous) text) := by
  induction h generalizing previous with
  | nil => exact .nil
  | @char c rest hc _ ih =>
    have hne := ne_underscore hc
    by_cases hu : c.isUpper = true
    · rw [snakeChars_of_isUpper hu hp]
      exact .word (.inl (isLower_toLower_of_isUpper hu)) (ih hne)
    · rw [snakeChars_of_not_isUpper (by simpa using hu)]
      refine .char ?_ (ih hne)
      simpa [Char.isAlphanum, Char.isAlpha, hu] using hc
  | @number d rest hd _ ih =>
    rw [snakeChars_of_not_isUpper rfl,
      snakeChars_of_not_isUpper (Naming.isUpper_eq_false_of_isDigit hd)]
    exact .word (.inr hd) (ih (ne_underscore (Naming.isAlphanum_of_isDigit hd)))

theorem IsSnakeTail.isLower_or_isDigit_or_eq {text : List Char} (h : IsSnakeTail text) :
    ∀ c ∈ text, c.isLower = true ∨ c.isDigit = true ∨ c = '_' := by
  induction h with
  | nil => simp
  | char hc _ ih => exact List.forall_mem_cons.2 ⟨hc.imp_right .inl, ih⟩
  | word hc _ ih =>
    exact List.forall_mem_cons.2 ⟨.inr (.inr rfl), List.forall_mem_cons.2 ⟨hc.imp_right .inl, ih⟩⟩

theorem IsSnakeTail.getLast?_cons_ne {text : List Char} (h : IsSnakeTail text) {first : Char}
    (hf : first ≠ '_') : (first :: text).getLast? ≠ some '_' := by
  have hne {c : Char} (hc : c.isLower = true ∨ c.isDigit = true) : c ≠ '_' := by
    rintro rfl
    exact absurd hc (by decide)
  induction h generalizing first with
  | nil => simpa using hf
  | char hc _ ih => simpa using ih (hne hc)
  | word hc _ ih => simpa using ih (hne hc)

theorem exists_snakeCase {identifier : String} (h : Naming.IsIdentifier identifier) :
    ∃ c rest, c.isUpper = true ∧ Naming.IsTail rest ∧ identifier.toList = c :: rest ∧
      (snakeCase identifier).toList = c.toLower :: snakeChars (some c) rest := by
  obtain @⟨c, rest, hc, hr⟩ := h
  exact ⟨c, rest, hc, hr, by simp, by simp [snakeCase, snakeChars, hc]⟩

theorem memberName_cases (identifier : String) :
    (snakeCase identifier ∈ pathKeywords ∧ memberName identifier = snakeCase identifier ++ "_") ∨
      (snakeCase identifier ∉ pathKeywords ∧ snakeCase identifier ∈ keywords ∧
        memberName identifier = "r#" ++ snakeCase identifier) ∨
      snakeCase identifier ∉ pathKeywords ∧ snakeCase identifier ∉ keywords ∧
        memberName identifier = snakeCase identifier := by
  unfold memberName
  by_cases hp : snakeCase identifier ∈ pathKeywords
  · exact .inl ⟨hp, by simp [hp]⟩
  · by_cases hk : snakeCase identifier ∈ keywords
    · exact .inr (.inl ⟨hp, hk, by simp [hp, hk]⟩)
    · exact .inr (.inr ⟨hp, hk, by simp [hp, hk]⟩)

theorem unmarked_memberName {identifier : String} (h : Naming.IsIdentifier identifier) :
    unmarked (memberName identifier).toList = (snakeCase identifier).toList := by
  obtain ⟨c, rest, hc, hr, -, hs⟩ := exists_snakeCase h
  have hl : c.toLower ≠ '_' := by
    intro heq
    exact absurd (heq ▸ isLower_toLower_of_isUpper hc) (by decide)
  have ht := isSnakeTail_snakeChars hr (ne_underscore (Naming.isAlphanum_of_isUpper hc))
  rcases memberName_cases identifier with ⟨hp, hm⟩ | ⟨-, -, hm⟩ | ⟨-, -, hm⟩
  · rw [hm]
    simp only [pathKeywords, List.mem_cons, List.not_mem_nil, or_false] at hp
    rcases hp with hp | hp | hp <;> rw [hp] <;> rfl
  · rw [hm, String.toList_append]
    rfl
  · rw [hm, hs, unmarked, if_neg (ht.getLast?_cons_ne hl)]
    rintro tail heq
    obtain ⟨-, heq⟩ := List.cons.inj heq
    exact absurd (ht.isLower_or_isDigit_or_eq '#' (heq ▸ List.mem_cons_self)) (by decide)

theorem identifierOf_memberName {identifier : String} (h : Naming.IsIdentifier identifier) :
    identifierOf (memberName identifier) = identifier := by
  obtain ⟨c, rest, hc, hr, hi, hs⟩ := exists_snakeCase h
  rw [identifierOf, unmarked_memberName h, hs]
  simp only [toUpper_toLower_of_isUpper hc,
    wordsOf_snakeChars hr (ne_underscore (Naming.isAlphanum_of_isUpper hc)), ← hi, String.ofList_toList]

-- ---------------------------------------------------------------------------
-- Legal names
-- ---------------------------------------------------------------------------

def strictKeywords : List String := [
  "as", "async", "await", "break", "const", "continue", "crate", "dyn", "else", "enum", "extern",
  "false", "fn", "for", "if", "impl", "in", "let", "loop", "match", "mod", "move", "mut", "pub",
  "ref", "return", "self", "Self", "static", "struct", "super", "trait", "true", "type", "unsafe",
  "use", "where", "while"]

def reservedKeywords : List String := [
  "abstract", "become", "box", "do", "final", "gen", "macro", "override", "priv", "try", "typeof",
  "unsized", "virtual", "yield"]

inductive IsLegal : String → Prop where
  | plain {c : Char} {rest : List Char} (hc : c.isLower = true)
      (hr : ∀ d ∈ rest, d.isLower = true ∨ d.isDigit = true ∨ d = '_')
      (hk : String.ofList (c :: rest) ∉ strictKeywords ++ reservedKeywords) :
      IsLegal (String.ofList (c :: rest))
  | raw {word : String} (hk : word ∈ strictKeywords ++ reservedKeywords)
      (hp : word ∉ ["crate", "self", "super", "Self"]) : IsLegal ("r#" ++ word)

theorem keywords_subset : ∀ word ∈ keywords,
    word ∈ strictKeywords ++ reservedKeywords ∧ word ∉ ["crate", "self", "super", "Self"] := by
  decide

theorem mem_keywords : ∀ word ∈ strictKeywords ++ reservedKeywords,
    word = "Self" ∨ word ∈ pathKeywords ∨ word ∈ keywords := by
  decide

theorem isLegal_memberName {identifier : String} (h : Naming.IsIdentifier identifier) :
    IsLegal (memberName identifier) := by
  obtain ⟨c, rest, hc, hr, -, hs⟩ := exists_snakeCase h
  have hl := isLower_toLower_of_isUpper hc
  have ht := (isSnakeTail_snakeChars hr
    (ne_underscore (Naming.isAlphanum_of_isUpper hc))).isLower_or_isDigit_or_eq
  have hs := String.toList_inj.1 (hs.trans String.toList_ofList.symm)
  rcases memberName_cases identifier with ⟨hp, hm⟩ | ⟨-, hk, hm⟩ | ⟨hp, hk, hm⟩
  · have hu : snakeCase identifier ++ "_" ∉ strictKeywords ++ reservedKeywords := by
      revert hp
      generalize snakeCase identifier = name
      revert name
      decide
    have happend : snakeCase identifier ++ "_" =
        String.ofList (c.toLower :: (snakeChars (some c) rest ++ ['_'])) := by
      rw [hs, ← List.cons_append, String.ofList_append]
    rw [hm, happend]
    refine .plain hl (List.forall_mem_append.2 ⟨ht, by simp⟩) (happend ▸ hu)
  · rw [hm]
    obtain ⟨hk, hp⟩ := keywords_subset _ hk
    exact .raw hk hp
  · rw [hm, hs]
    refine .plain hl ht (hs ▸ fun hw => ?_)
    rcases mem_keywords _ hw with hw | hw | hw
    · have hself := congrArg String.toList (hs.symm.trans hw)
      rw [String.toList_ofList] at hself
      obtain ⟨hself, -⟩ := List.cons.inj hself
      exact absurd (hself ▸ hl) (by decide)
    · exact hp hw
    · exact hk hw

def IsTypeName (name : String) : Prop :=
  ∃ c rest, name = String.ofList (c :: rest) ∧ c.isUpper = true ∧
    ∀ d ∈ rest, d.isAlphanum = true ∨ d = '_'

namespace IsTypeName

theorem of_isIdentifier {identifier : String} (h : Naming.IsIdentifier identifier) :
    IsTypeName identifier := by
  obtain @⟨c, rest, hc, hr⟩ := h
  exact ⟨c, rest, rfl, hc, hr.isAlphanum_or_eq⟩

theorem of_word {name : String} {c : Char} {rest : List Char} (h : name.toList = c :: rest)
    (hc : c.isUpper = true) (hr : rest.all Char.isAlphanum = true) : IsTypeName name :=
  ⟨c, rest, by rw [← h, String.ofList_toList], hc, fun d hd => .inl (List.all_eq_true.1 hr d hd)⟩

theorem append {first second : String} (hf : IsTypeName first) (hs : IsTypeName second) :
    IsTypeName (first ++ second) := by
  obtain ⟨c, rest, rfl, hc, hr⟩ := hf
  obtain ⟨d, others, rfl, hd, ho⟩ := hs
  refine ⟨c, rest ++ d :: others, by rw [← String.ofList_append]; rfl, hc, ?_⟩
  exact List.forall_mem_append.2 ⟨hr, List.forall_mem_cons.2
    ⟨.inl (Naming.isAlphanum_of_isUpper hd), ho⟩⟩

end IsTypeName

end Source

-- ---------------------------------------------------------------------------
-- The names of a model
-- ---------------------------------------------------------------------------

section
variable {schemas : List EntitySchema} {catalog : List ServiceDomain}
  {services : List (ServiceGroup × List FieldRecord)}

open Naming (IsIdentifier)
open Source (IsTypeName)

theorem isIdentifier_of_mem_lookups {name : α → String} {items : List α} {keys : List String}
    {pair : String × α}
    (h : pair ∈ (Naming.canonicalNames keys Naming.fieldMark).filterMap fun named =>
      (lastWhere? (name · == named.sourceKey) items).map (named.identifier, ·)) :
    IsIdentifier pair.1 := by
  obtain ⟨named, hn, hf⟩ := List.mem_filterMap.1 h
  obtain ⟨found, -, rfl⟩ := Option.map_eq_some_iff.1 hf
  exact Naming.isIdentifier_of_mem_canonicalNames Naming.isMark_fieldMark hn

theorem DomainAggregator.isIdentifier_of_mem_ofEntities {domain : String}
    {entities : List (String × String)} {property : EntityProperty}
    (h : property ∈ (ofEntities domain entities).entities) : IsIdentifier property.identifier := by
  refine Naming.isIdentifier_of_mem_dedupe (fun item hi => ?_)
    (List.of_mem_zip (mem_zip_of_mem_ofEntities h)).2
  obtain ⟨entity, -, rfl⟩ := List.mem_map.1 hi
  exact Naming.isIdentifier_resolve _ Naming.isMark_entityMark

theorem EntitySchema.isIdentifier_of_mem_fields {schema : EntitySchema} {field : FieldDefinition}
    (h : field ∈ (schema.attributeRecord schemas).fields) : IsIdentifier field.identifier := by
  obtain ⟨named, hn, hf⟩ := List.mem_filterMap.1 h
  obtain ⟨found, -, rfl⟩ := Option.map_eq_some_iff.1 hf
  exact Naming.isIdentifier_of_mem_canonicalNames Naming.isMark_fieldMark hn

theorem Service.isIdentifier_of_mem_fields {service : Service} {record : FieldRecord}
    (h : service.parameterRecord domain identifier = .ok record) {field : FieldDefinition}
    (hf : field ∈ record.fields) : IsIdentifier field.identifier := by
  obtain ⟨fields, hm, rfl⟩ := parameterRecord_eq_ok.1 h
  obtain ⟨pair, hp, hd⟩ := mem_of_mapM_eq_ok hm hf
  rw [ServiceField.identifier_of_define_eq_ok hd]
  exact isIdentifier_of_mem_lookups hp

theorem ServiceDomain.isIdentifier_of_mem_methods {entry : ServiceDomain} {group : ServiceGroup}
    {records : List FieldRecord} (h : entry.group = .ok (group, records)) {method : ServiceMethod}
    (hm : method ∈ group.methods) : IsIdentifier method.identifier := by
  obtain ⟨methods, hr, rfl, -⟩ := group_eq_ok.1 h
  obtain ⟨result, hp, rfl⟩ := List.mem_map.1 hm
  obtain ⟨pair, hd, hf⟩ := mem_of_mapM_eq_ok hr hp
  rw [Service.identifier_of_method_eq_ok hf]
  exact isIdentifier_of_mem_lookups hd

theorem ServiceDomain.isIdentifier_of_mem_records {entry : ServiceDomain} {group : ServiceGroup}
    {records : List FieldRecord} (h : entry.group = .ok (group, records)) {record : FieldRecord}
    (hr : record ∈ records) {field : FieldDefinition} (hf : field ∈ record.fields) :
    IsIdentifier field.identifier := by
  obtain ⟨identifier, service, -, -, hmade⟩ := (mem_records h).1 hr
  exact Service.isIdentifier_of_mem_fields hmade hf

theorem isIdentifier_of_mem_definitions (hg : ServiceDomain.groups catalog = .ok services)
    {definition : TypeDefinition} (hm : definition ∈ GeneratedModel.definitions schemas services) :
    ∀ identifier ∈ definition.memberIdentifiers, IsIdentifier identifier := by
  have hmethods {result : ServiceGroup × List FieldRecord} (hr : result ∈ services) :
      ∀ method ∈ result.1.methods, IsIdentifier method.identifier := by
    obtain ⟨entry, -, he⟩ := mem_of_mapM_eq_ok hg hr
    exact fun method => ServiceDomain.isIdentifier_of_mem_methods he
  unfold TypeDefinition.memberIdentifiers
  cases definition with
  | registration registration => simp
  | rootEntities root =>
    obtain rfl := GeneratedModel.mem_rootEntities.1 hm
    simp only [List.forall_mem_map]
    exact fun aggregator _ => Naming.isIdentifier_domainName aggregator.domain
  | domainEntities aggregator =>
    obtain ⟨domain, -, rfl⟩ := List.mem_map.1 (GeneratedModel.mem_domainEntities.1 hm)
    exact List.forall_mem_map.2 fun property => DomainAggregator.isIdentifier_of_mem_ofEntities
  | entity entity => simp
  | attributeRecord record =>
    obtain ⟨schema, -, rfl⟩ := GeneratedModel.mem_attributeRecord.1 hm
    exact List.forall_mem_map.2 fun field => EntitySchema.isIdentifier_of_mem_fields
  | rootServices root =>
    obtain rfl := GeneratedModel.mem_rootServices.1 hm
    simp only [List.forall_mem_map]
    exact fun group _ => Naming.isIdentifier_domainName group.1.domain
  | serviceGroup group =>
    obtain ⟨result, hr, rfl⟩ := GeneratedModel.mem_serviceGroup.1 hm
    exact List.forall_mem_map.2 (hmethods hr)
  | serviceParameters record =>
    obtain ⟨result, hr, hrecord⟩ := List.mem_flatMap.1 (GeneratedModel.mem_serviceParameters.1 hm)
    obtain ⟨entry, -, he⟩ := mem_of_mapM_eq_ok hg hr
    exact List.forall_mem_map.2 fun field => ServiceDomain.isIdentifier_of_mem_records he hrecord
  | entityExtensions extensions =>
    obtain ⟨result, hr, hx⟩ := GeneratedModel.mem_entityExtensions.1 hm
    obtain ⟨-, rfl⟩ := ServiceGroup.extensions?_eq_some.1 hx
    exact List.forall_mem_map.2 (hmethods hr)

theorem NameEnding.isTypeName_text (ending : NameEnding) : IsTypeName ending.text := by
  cases ending <;> exact .of_word rfl rfl rfl

theorem EntitySchema.isTypeName_baseName (schema : EntitySchema) :
    IsTypeName (schema.baseName schemas) := by
  have hd := IsTypeName.of_isIdentifier (Naming.isIdentifier_domainName schema.domain)
  unfold baseName
  split
  · exact (IsTypeName.of_word rfl rfl rfl).append hd
  · simpa using hd

theorem ServiceDomain.isTypeName_of_mem_recordStems {entry : ServiceDomain} {stem : String}
    (h : stem ∈ entry.recordStems) : IsTypeName stem := by
  obtain ⟨⟨identifier, service⟩, hp, hs⟩ := List.mem_filterMap.1 h
  simp only [Service.recordStem?, Option.ite_none_left_eq_some, Option.some.injEq] at hs
  rw [← hs.2]
  exact (IsTypeName.of_isIdentifier (Naming.isIdentifier_domainName entry.domain)).append
    (.of_isIdentifier (isIdentifier_of_mem_lookups hp))

theorem isTypeName_of_mem_families (schemas : List EntitySchema) (catalog : List ServiceDomain) :
    ∀ family ∈ families schemas catalog ++ [extensionFamily schemas catalog],
      ∀ stem ∈ family.2, stem = "" ∨ IsTypeName stem := by
  have hdomains (domains : List String) :
      ∀ stem ∈ domains.map Naming.domainName, stem = "" ∨ IsTypeName stem :=
    List.forall_mem_map.2 fun domain _ =>
      .inr (.of_isIdentifier (Naming.isIdentifier_domainName domain))
  have hbases : ∀ stem ∈ schemas.map (EntitySchema.baseName schemas), stem = "" ∨ IsTypeName stem :=
    List.forall_mem_map.2 fun schema _ => .inr schema.isTypeName_baseName
  have hroot {stems : List String} (h : ∀ stem ∈ stems, stem = "" ∨ IsTypeName stem) :
      ∀ stem ∈ "" :: stems, stem = "" ∨ IsTypeName stem := List.forall_mem_cons.2 ⟨.inl rfl, h⟩
  intro family hf
  simp only [families, List.cons_append, List.nil_append, List.mem_cons, List.not_mem_nil,
    or_false] at hf
  rcases hf with rfl | rfl | rfl | rfl | rfl | rfl | rfl
  · exact hroot (by simp)
  · exact hroot (hdomains _)
  · exact hbases
  · exact hbases
  · exact hroot (hdomains _)
  · intro stem hs
    obtain ⟨entry, -, hs⟩ := List.mem_flatMap.1 hs
    exact .inr (ServiceDomain.isTypeName_of_mem_recordStems hs)
  · exact hdomains _

theorem isTypeName_of_mem_names (hg : ServiceDomain.groups catalog = .ok services) :
    ∀ name ∈ (GeneratedModel.definitions schemas services).map TypeDefinition.name,
      IsTypeName name := by
  rw [names_definitions hg, List.forall_mem_map]
  intro spelling hs
  obtain ⟨family, hf, hs⟩ := List.mem_flatMap.1 hs
  obtain ⟨stem, hm, rfl⟩ := List.mem_map.1 hs
  rcases isTypeName_of_mem_families schemas catalog family hf stem hm with rfl | hstem
  · simpa [Spelling.text] using family.1.isTypeName_text
  · exact hstem.append family.1.isTypeName_text

end

namespace GeneratedModel

/-- In whatever is generated, members of one definition have names that are distinct and legal, and
types are named as types are. -/
theorem memberNames_of_generate_eq_ok (schemas : List EntitySchema) (catalog : List ServiceDomain)
    (model : GeneratedModel) (h : generate schemas catalog = .ok model) :
    (∀ definition ∈ model.types,
      (definition.memberIdentifiers.map Source.memberName).Nodup ∧
      ∀ identifier ∈ definition.memberIdentifiers,
        Source.IsLegal (Source.memberName identifier)) ∧
    ∀ name ∈ model.typeNames, Source.IsTypeName name := by
  obtain ⟨services, hg, hc⟩ := bind_eq_ok.1 h
  obtain ⟨-, hmembers, rfl⟩ := check_eq_ok.1 hc
  refine ⟨fun definition hm => ?_, isTypeName_of_mem_names hg⟩
  have hidentifiers := isIdentifier_of_mem_definitions hg hm
  constructor
  · refine (List.nodup_map_iff_inj_on (hmembers definition hm)).2 fun first hf second hs heq => ?_
    rw [← Source.identifierOf_memberName (hidentifiers first hf), heq,
      Source.identifierOf_memberName (hidentifiers second hs)]
  · exact fun identifier hi => Source.isLegal_memberName (hidentifiers identifier hi)

def keywordSchemas : List EntitySchema := [⟨"self", false, [⟨"self.async", none, []⟩], []⟩]

def keywordCatalog : List ServiceDomain :=
  [⟨"self", [⟨"type", none, [⟨"2nd", none, false, none⟩]⟩]⟩]

theorem memberNames_keywords :
    ∃ model, generate keywordSchemas keywordCatalog = .ok model ∧
      (∀ definition ∈ model.types,
        (definition.memberIdentifiers.map Source.memberName).Nodup ∧
        ∀ identifier ∈ definition.memberIdentifiers,
          Source.IsLegal (Source.memberName identifier)) ∧
      ∀ name ∈ model.typeNames, Source.IsTypeName name := by
  have hok : (generate keywordSchemas keywordCatalog).isOk = true := by decide +kernel
  cases h : generate keywordSchemas keywordCatalog with
  | error error => rw [h] at hok; cases hok
  | ok model => exact ⟨model, rfl, memberNames_of_generate_eq_ok _ _ _ h⟩

end GeneratedModel

end HomeHub
