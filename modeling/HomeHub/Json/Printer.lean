import HomeHub.Json.Value
import HomeHub.Numeric.Shortest
import HomeHub.Text.Quoted

/-!
# Writing JSON

Values are written on one line, or with every item and member on a line of its own, two more
spaces deep than its container. Quotes and backslashes are escaped, and control characters by a
letter or by their number; every other character stands for itself.
-/

namespace HomeHub.Json

/-- The shortest digits of a number. It is positional while the point falls into or next to its
first sixteen digits or at most four zeros in front of them, and shows at least one place; else
the digits have a point behind the first and a signed exponent follows. -/
def realText (x : Binary64) : List Char :=
  let sign := if x.isNegative then ['-'] else []
  if x.magnitude = 0 then sign ++ ['0', '.', '0']
  else
    let (d, p) := x.shortest
    let digits := Nat.toDigits 10 d
    let point : Int := digits.length + p
    let body :=
      if 0 ≤ p && point ≤ 16 then digits ++ List.replicate p.toNat '0' ++ ['.', '0']
      else if 0 < point && point ≤ 16 then
        digits.take point.toNat ++ ['.'] ++ digits.drop point.toNat
      else if -5 < point && point ≤ 0 then
        ['0', '.'] ++ List.replicate (-point).toNat '0' ++ digits
      else
        let places := if digits.length = 1 then [] else '.' :: digits.drop 1
        let exponent := point - 1
        digits.take 1 ++ places ++ ['e', if exponent < 0 then '-' else '+'] ++
          Nat.toDigits 10 exponent.natAbs
    sign ++ body

def intText (n : Int) : List Char :=
  (if n < 0 then ['-'] else []) ++ Nat.toDigits 10 n.natAbs

def Number.text : Number → List Char
  | .int n => intText n
  | .real x => realText x

def escapeChar (c : Char) : List Char :=
  if c = '"' then ['\\', '"']
  else if c = '\\' then ['\\', '\\']
  else if c = '\x08' then ['\\', 'b']
  else if c = '\x0c' then ['\\', 'f']
  else if c = '\n' then ['\\', 'n']
  else if c = '\r' then ['\\', 'r']
  else if c = '\t' then ['\\', 't']
  else if c.toNat < 0x20 then
    ['\\', 'u', '0', '0', Nat.digitChar (c.toNat / 16), Nat.digitChar (c.toNat % 16)]
  else [c]

def literal (text : List Char) : List Char :=
  '"' :: (text.flatMap escapeChar ++ ['"'])

structure Style where
  lineBreak : Nat → List Char
  colon : List Char

def Style.compact : Style := ⟨fun _ => [], [':']⟩

def Style.indented : Style := ⟨fun depth => '\n' :: List.replicate (2 * depth) ' ', [':', ' ']⟩

namespace Value

mutual
def write (style : Style) (depth : Nat) : Value → List Char
  | .null => ['n', 'u', 'l', 'l']
  | .bool true => ['t', 'r', 'u', 'e']
  | .bool false => ['f', 'a', 'l', 's', 'e']
  | .number n => n.text
  | .string s => literal s.toList
  | .array [] => ['[', ']']
  | .array (v :: vs) =>
    '[' :: (style.lineBreak (depth + 1) ++ (v.write style (depth + 1) ++
      (writeItems style (depth + 1) vs ++ (style.lineBreak depth ++ [']']))))
  | .object [] => ['\x7b', '\x7d']
  | .object (m :: ms) =>
    '\x7b' :: (style.lineBreak (depth + 1) ++ (writeMember style (depth + 1) m ++
      (writeMembers style (depth + 1) ms ++ (style.lineBreak depth ++ ['\x7d']))))
termination_by structural v => v
def writeItems (style : Style) (depth : Nat) : List Value → List Char
  | [] => []
  | v :: vs => ',' :: (style.lineBreak depth ++ (v.write style depth ++ writeItems style depth vs))
termination_by structural vs => vs
def writeMember (style : Style) (depth : Nat) : String × Value → List Char
  | (k, v) => literal k.toList ++ (style.colon ++ v.write style depth)
termination_by structural m => m
def writeMembers (style : Style) (depth : Nat) : List (String × Value) → List Char
  | [] => []
  | m :: ms =>
    ',' :: (style.lineBreak depth ++ (writeMember style depth m ++ writeMembers style depth ms))
termination_by structural ms => ms
end

def compact (value : Value) : String :=
  String.ofList (value.write .compact 0)

def indented (value : Value) : String :=
  String.ofList (value.write .indented 0)

end Value

end HomeHub.Json
