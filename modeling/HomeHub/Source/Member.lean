/-!
# Member names of generated source

Identifiers of a model in the spelling that the generated Rust source gives to methods and fields:
words in lower case between underscores, and a keyword marked as a name.
-/

namespace HomeHub.Source

/-- The strict and reserved keywords. -/
def keywords : List String := [
  "abstract", "as", "async", "await", "become", "box", "break", "const", "continue", "do", "dyn",
  "else", "enum", "extern", "false", "final", "fn", "for", "gen", "if", "impl", "in", "let", "loop",
  "macro", "match", "mod", "move", "mut", "override", "priv", "pub", "ref", "return", "static",
  "struct", "trait", "true", "try", "type", "typeof", "unsafe", "unsized", "use", "virtual",
  "where", "while", "yield"]

/-- The keywords that no mark turns into a name. -/
def pathKeywords : List String := ["crate", "self", "super"]

/-- An upper-case letter starts a word, unless it is the first or follows an underscore. -/
def snakeChars (previous : Option Char) : List Char → List Char
  | [] => []
  | c :: rest =>
    if c.isUpper then
      let start := match previous with
        | none => []
        | some p => if p = '_' then [] else ['_']
      start ++ c.toLower :: snakeChars (some c) rest
    else c :: snakeChars (some c) rest

def snakeCase (identifier : String) : String :=
  String.ofList (snakeChars none identifier.toList)

def memberName (identifier : String) : String :=
  let name := snakeCase identifier
  if pathKeywords.contains name then name ++ "_"
  else if keywords.contains name then "r#" ++ name
  else name

end HomeHub.Source
