import HomeHub.FileError

/-!
# File trees

Files and directories below a working directory, and the operations of a file system on paths. A
path is a text with slashes; blank parts and single dots stay where they are, and two dots lead to
the directory above. What a path has to pass through must be a directory. Names and paths have a
longest length in bytes, of which a name's is only noticed where it is looked for.
-/

namespace HomeHub

namespace Path

def pieceChars : List Char → List (List Char)
  | [] => [[]]
  | c :: rest =>
    if c = '/' then [] :: pieceChars rest
    else
      match pieceChars rest with
      | [] => [[c]]
      | first :: others => (c :: first) :: others

def pieces (path : String) : List String :=
  (pieceChars path.toList).map String.ofList

def isIdle (piece : String) : Bool := piece = "" || piece = "."

def trimmed (pieces : List String) : List String :=
  (pieces.reverse.dropWhile isIdle).reverse

/-- The path without its last part, none for a path that has no part. A path of one part leads
back to the empty path, or to the root. -/
def parent? (path : String) : Option String :=
  match pieces path with
  | [] => none
  | first :: rest =>
    match trimmed rest with
    | [] => if first = "" then none else some ""
    | others =>
      match trimmed others.dropLast with
      | [] => some (if first = "" then "/" else first)
      | others => some ("/".intercalate (first :: others))

def steps (path : String) : List String :=
  (pieces path).filter (!isIdle ·)

def maximalBytes : Nat := 4095

def maximalNameBytes : Nat := 255

def problem? (path : String) : Option FileError :=
  if path.toList.contains '\x00' then some .invalidInput
  else if maximalBytes < path.utf8ByteSize then some .nameTooLong
  else none

end Path

inductive FileEntry where
  | file (content : ByteArray)
  | directory

/-- A place in a tree: how many names lead to it from the working directory, and these names, the
last one first. Places of different depth are told apart without a look at their names. -/
structure Location where
  depth : Nat
  names : List String
  deriving DecidableEq

namespace Location

def working : Location := ⟨0, []⟩

def child (location : Location) (name : String) : Location :=
  ⟨location.depth + 1, name :: location.names⟩

def parent (location : Location) : Location :=
  ⟨location.depth - 1, location.names.tail⟩

end Location

structure FileTree where
  /-- What has been put where, the latest first. -/
  entries : List (Location × FileEntry)

/-- Where a path leads. -/
inductive Destination where
  /-- The last step is no name. -/
  | directory (location : Location)
  /-- A name in a directory, whether there is an entry or not. A slash may follow it. -/
  | entry (location : Location) (name : String) (slash : Bool)

namespace FileTree

def empty : FileTree := ⟨[]⟩

/-- What is at a location. The working directory itself is always there and has no entry. -/
def get? (tree : FileTree) (location : Location) : Option FileEntry :=
  tree.entries.lookup location

def set (tree : FileTree) (location : Location) (entry : FileEntry) : FileTree :=
  ⟨(location, entry) :: tree.entries⟩

theorem get?_empty (location : Location) : empty.get? location = none := rfl

theorem get?_set (tree : FileTree) (location other : Location) (entry : FileEntry) :
    (tree.set location entry).get? other =
      if other = location then some entry else tree.get? other := by
  by_cases h : other = location <;> simp [get?, set, List.lookup_cons, h, beq_false_of_ne]

def look (tree : FileTree) (location : Location) (name : String) :
    Except FileError (Option FileEntry) :=
  if Path.maximalNameBytes < name.utf8ByteSize then .error .nameTooLong
  else .ok (tree.get? (location.child name))

def enter (tree : FileTree) (location : Location) : List String → Except FileError Location
  | [] => .ok location
  | piece :: rest =>
    if Path.isIdle piece then tree.enter location rest
    else if piece = ".." then tree.enter location.parent rest
    else
      match tree.look location piece with
      | .ok (some .directory) => tree.enter (location.child piece) rest
      | .ok (some (.file _)) => .error .notADirectory
      | .ok none => .error .notFound
      | .error error => .error error

def destination (tree : FileTree) (path : String) : Except FileError Destination :=
  match Path.problem? path with
  | some error => .error error
  | none => do
    let names := (Path.pieces path).filter (· ≠ "")
    let location ← tree.enter .working names.dropLast
    match names.getLast? with
    | none => if path = "" then throw .notFound else return .directory location
    | some last =>
      if last = "." then return .directory location
      else if last = ".." then return .directory location.parent
      else return .entry location last ((Path.pieces path).getLast? == some "")

def read (tree : FileTree) (path : String) : Except FileError ByteArray := do
  match ← tree.destination path with
  | .directory _ => throw .isADirectory
  | .entry location name slash =>
    match ← tree.look location name with
    | none => throw .notFound
    | some .directory => throw .isADirectory
    | some (.file content) => if slash then throw .notADirectory else return content

def readText (tree : FileTree) (path : String) : Except FileError String := do
  match String.fromUTF8? (← tree.read path) with
  | some text => return text
  | none => throw .invalidData

/-- Creates a file or replaces its content. What ends with a slash can only be a directory. -/
def write (tree : FileTree) (path : String) (content : ByteArray) : Except FileError FileTree := do
  match ← tree.destination path with
  | .directory _ => throw .isADirectory
  | .entry location name slash =>
    if slash then throw .isADirectory
    else
      match ← tree.look location name with
      | some .directory => throw .isADirectory
      | _ => return tree.set (location.child name) (.file content)

/-- Goes down from a directory and makes the directories that are missing. What has been made stays,
also where a later step fails. A file is no directory to pass through; where it is the last step, or
behind a directory that has just been made, it is found in the place of one that is to be made. -/
def descend (tree : FileTree) (location : Location) (begun : Bool) :
    List String → Except FileError Unit × FileTree
  | [] => (.ok (), tree)
  | name :: rest =>
    if name = ".." then tree.descend location.parent begun rest
    else
      match tree.look location name with
      | .error error => (.error error, tree)
      | .ok (some .directory) => tree.descend (location.child name) begun rest
      | .ok (some (.file _)) =>
        (.error (if begun || rest.isEmpty then .alreadyExists else .notADirectory), tree)
      | .ok none =>
        (tree.set (location.child name) .directory).descend (location.child name) true rest

def createDirectories (tree : FileTree) (path : String) : Except FileError Unit × FileTree :=
  match Path.problem? path with
  | some error => (.error error, tree)
  | none => tree.descend .working false (Path.steps path)

end FileTree

end HomeHub
