import HomeHub.Numeric.Binary64
import HomeHub.Table

/-!
# JSON values

An integer keeps its exact value, and every other number is a binary64 number. The two kinds stay
apart: `1` and `1.0` are different values. Values read from a text hold their object members in
ascending order, one a name; values that are built to be written hold them in writing order.
-/

namespace HomeHub.Json

inductive Number where
  | int (value : Int)
  | real (value : Binary64)
  deriving DecidableEq

def Number.toBinary64 : Number → Binary64
  | .int n => .ofInt n
  | .real x => x

def Number.same : Number → Number → Bool
  | .int m, .int n => m == n
  | .real x, .real y => x.same y
  | _, _ => false

inductive Value where
  | null
  | bool (value : Bool)
  | number (value : Number)
  | string (value : String)
  | array (items : List Value)
  | object (members : List (String × Value))

abbrev Members := Table Value

namespace Value

def int (n : Int) : Value := .number (.int n)

def ofOption {α : Type} (toValue : α → Value) : Option α → Value
  | none => .null
  | some a => toValue a

mutual
def same : Value → Value → Bool
  | .null, .null => true
  | .bool a, .bool b => a == b
  | .number m, .number n => m.same n
  | .string s, .string t => s == t
  | .array vs, .array ws => sameItems vs ws
  | .object fs, .object gs => sameMembers fs gs
  | _, _ => false
termination_by structural v => v
def sameItems : List Value → List Value → Bool
  | [], [] => true
  | v :: vs, w :: ws => v.same w && sameItems vs ws
  | _, _ => false
termination_by structural vs => vs
def sameMember : String × Value → String × Value → Bool
  | (j, v), (k, w) => j == k && v.same w
termination_by structural v => v
def sameMembers : List (String × Value) → List (String × Value) → Bool
  | [], [] => true
  | f :: fs, g :: gs => sameMember f g && sameMembers fs gs
  | _, _ => false
termination_by structural fs => fs
end

mutual
def depth : Value → Nat
  | .array items => depthOfItems items + 1
  | .object members => depthOfMembers members + 1
  | _ => 0
termination_by structural v => v
def depthOfItems : List Value → Nat
  | [] => 0
  | v :: vs => max v.depth (depthOfItems vs)
termination_by structural vs => vs
def depthOfMember : String × Value → Nat
  | (_, v) => v.depth
termination_by structural v => v
def depthOfMembers : List (String × Value) → Nat
  | [] => 0
  | f :: fs => max (depthOfMember f) (depthOfMembers fs)
termination_by structural fs => fs
end

mutual
/-- The value with every number of the second kind put through `f`. -/
def mapReals (f : Binary64 → Value) : Value → Value
  | .number (.real x) => f x
  | .array items => .array (mapRealsOfItems f items)
  | .object members => .object (mapRealsOfMembers f members)
  | v => v
termination_by structural v => v
def mapRealsOfItems (f : Binary64 → Value) : List Value → List Value
  | [] => []
  | v :: vs => v.mapReals f :: mapRealsOfItems f vs
termination_by structural vs => vs
def mapRealsOfMember (f : Binary64 → Value) : String × Value → String × Value
  | (k, v) => (k, v.mapReals f)
termination_by structural v => v
def mapRealsOfMembers (f : Binary64 → Value) : List (String × Value) → List (String × Value)
  | [] => []
  | m :: ms => mapRealsOfMember f m :: mapRealsOfMembers f ms
termination_by structural ms => ms
end

end Value

end HomeHub.Json
