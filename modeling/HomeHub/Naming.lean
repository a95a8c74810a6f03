import HomeHub.Text.Ascending

/-!
# Naming

Keys of the hub become identifiers made of capitalised words. Identifiers that meet in one scope
are told apart by a number behind an underscore. Every further spelling of a name is derived from
its identifier, so uniqueness is settled here.
-/

namespace HomeHub.Naming

/-- The identifier of a key without a letter or digit. -/
def unnamed : String := "Unnamed"

/-- What stands before an identifier that would start with a digit, by scope. -/
def entityMark : String := "E_"

def fieldMark : String := "A_"

def domainMark : String := "D_"

/-- A word is a run of ASCII letters and digits; of each only the first letter is changed. -/
def pascalChars (atStart : Bool) : List Char → List Char
  | [] => []
  | c :: rest =>
    if c.isAlphanum then (if atStart then c.toUpper else c) :: pascalChars false rest
    else pascalChars true rest

def pascalCase (key : String) : String :=
  String.ofList (pascalChars true key.toList)

def resolveChars (key mark : List Char) : List Char :=
  match pascalChars true key with
  | [] => unnamed.toList
  | c :: rest => if c.isDigit then mark ++ c :: rest else c :: rest

def resolve (key mark : String) : String :=
  String.ofList (resolveChars key.toList mark.toList)

def domainName (domain : String) : String := resolve domain domainMark

def numbered (identifier : String) (n : Nat) : String :=
  identifier ++ "_" ++ String.ofList (Nat.toDigits 10 n)

structure Named where
  identifier : String
  sourceKey : String
  deriving DecidableEq

/-- How many of the items come before the one at `position` by source key, those with its key by
position. -/
def rank (items : List (Named × Nat)) (item : Named) (position : Nat) : Nat :=
  items.countP fun (other, place) =>
    other.sourceKey < item.sourceKey || (other.sourceKey == item.sourceKey && place < position)

/-- One identifier an item, in order. An identifier that several items share gets the rank of each
among them appended. -/
def dedupe (items : List Named) : List String :=
  let placed := items.zipIdx
  placed.map fun (item, position) =>
    let sharing := placed.filter fun (other, _) => other.identifier == item.identifier
    if sharing.length < 2 then item.identifier
    else numbered item.identifier (rank sharing item position)

theorem length_dedupe (items : List Named) : (dedupe items).length = items.length := by
  simp [dedupe]

/-- The names of keys in one scope, sorted by identifier. -/
def canonicalNames (keys : List String) (mark : String) : List Named :=
  let items := keys.map fun key => Named.mk (resolve key mark) key
  let names := items.zipWith (fun item identifier => Named.mk identifier item.sourceKey) (dedupe items)
  Text.sortedByBoth Named.identifier Named.sourceKey names

end HomeHub.Naming
