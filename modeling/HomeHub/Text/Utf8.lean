/-!
# Text in bytes

Bytes are read as UTF-8 into symbols: each well-formed sequence is its character, and a byte that
starts no such sequence stays a byte. An ASCII byte is always its own character, so the symbols
divide exactly where a reader of ASCII punctuation would divide the bytes.
-/

namespace HomeHub.Text

/-- A character, or a byte that is part of none. -/
inductive Symbol where
  | char (c : Char)
  | stray (byte : UInt8)
  deriving DecidableEq

def Symbol.size : Symbol → Nat
  | .char c => c.utf8Size
  | .stray _ => 1

def Symbol.totalSize : List Symbol → Nat
  | [] => 0
  | s :: rest => s.size + Symbol.totalSize rest

def symbols (text : List Char) : List Symbol :=
  text.map .char

/-- The text of symbols that are all characters. -/
def Symbol.toText? : List Symbol → Option (List Char)
  | [] => some []
  | .char c :: rest => (Symbol.toText? rest).map (c :: ·)
  | .stray _ :: _ => none

theorem Symbol.toText?_symbols (text : List Char) : Symbol.toText? (symbols text) = some text := by
  induction text with
  | nil => rfl
  | cons c rest ih => simp_all [symbols, Symbol.toText?]

namespace Utf8

/-- The six low bits of a byte `10xxxxxx`. -/
def continuation? (byte : UInt8) : Option Nat :=
  if 0x80 ≤ byte && byte ≤ 0xbf then some (byte.toNat - 0x80) else none

/-- The character of a scalar value that its sequence may not have spelled shorter. -/
def scalar? (least : Nat) (n : Nat) : Option Char :=
  if h : n.isValidChar then if least ≤ n then some (Char.ofNatAux n h) else none else none

def leading? (first : UInt8) (rest : List UInt8) : Option (Char × Nat) :=
  let n := first.toNat
  if n < 0x80 then (scalar? 0 n).map (·, 0)
  else if 0xc0 ≤ n && n < 0xe0 then
    match rest with
    | b :: _ => do
      let b ← continuation? b
      (scalar? 0x80 ((n - 0xc0) * 64 + b)).map (·, 1)
    | _ => none
  else if 0xe0 ≤ n && n < 0xf0 then
    match rest with
    | b :: c :: _ => do
      let b ← continuation? b
      let c ← continuation? c
      (scalar? 0x800 (((n - 0xe0) * 64 + b) * 64 + c)).map (·, 2)
    | _ => none
  else if 0xf0 ≤ n && n < 0xf8 then
    match rest with
    | b :: c :: d :: _ => do
      let b ← continuation? b
      let c ← continuation? c
      let d ← continuation? d
      (scalar? 0x10000 ((((n - 0xf0) * 64 + b) * 64 + c) * 64 + d)).map (·, 3)
    | _ => none
  else none

def decode (bytes : List UInt8) : List Symbol :=
  match bytes with
  | [] => []
  | first :: rest =>
    match leading? first rest with
    | some (c, more) => .char c :: decode (rest.drop more)
    | none => .stray first :: decode rest
termination_by bytes.length
decreasing_by all_goals simp [List.length_drop]; try omega

end Utf8

end HomeHub.Text
