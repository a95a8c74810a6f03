import HomeHub.Numeric.Decimal
import HomeHub.Toml.Value

/-!
# TOML literals

Readers of the values that hold no others, each for the front of a text. A reader gives what it
has read and the rest of the text.
-/

namespace HomeHub.Toml

abbrev Reader (α : Type) := List Char → Option (α × List Char)

-- ---------------------------------------------------------------------------
-- Blanks, line ends, comments
-- ---------------------------------------------------------------------------

def isBlank (c : Char) : Bool := c = ' ' || c = '\t'

def skipBlanks (text : List Char) : List Char := text.dropWhile isBlank

def newline? : List Char → Option (List Char)
  | '\n' :: rest => some rest
  | '\r' :: '\n' :: rest => some rest
  | _ => none

/-- A character that strings and comments may hold: no control character but the tab. -/
def isPlain (c : Char) : Bool := c = '\t' || (' ' ≤ c && c ≠ '\x7f')

def skipComment : List Char → List Char
  | '#' :: rest => rest.dropWhile isPlain
  | text => text

-- ---------------------------------------------------------------------------
-- Strings
-- ---------------------------------------------------------------------------

def hexValue? (c : Char) : Option Nat :=
  if '0' ≤ c && c ≤ '9' then some (c.toNat - '0'.toNat)
  else if 'a' ≤ c && c ≤ 'f' then some (c.toNat - 'a'.toNat + 10)
  else if 'A' ≤ c && c ≤ 'F' then some (c.toNat - 'A'.toNat + 10)
  else none

/-- Digits of a base without signs; all have to be digits of it. -/
def ofDigits? (base : Nat) (digits : List Char) : Option Nat :=
  digits.foldlM (fun n c => do
    let d ← hexValue? c
    if d < base then some (base * n + d) else none) 0

def numberedChar? (count : Nat) (text : List Char) : Option (Char × List Char) := do
  let digits := text.take count
  if digits.length < count then none
  else
    let n ← ofDigits? 16 digits
    if h : n.isValidChar then some (Char.ofNatAux n h, text.drop count) else none

def escaped? : Reader Char
  | 'b' :: rest => some ('\x08', rest)
  | 't' :: rest => some ('\t', rest)
  | 'n' :: rest => some ('\n', rest)
  | 'f' :: rest => some ('\x0c', rest)
  | 'r' :: rest => some ('\r', rest)
  | '"' :: rest => some ('"', rest)
  | '\\' :: rest => some ('\\', rest)
  | 'u' :: rest => numberedChar? 4 rest
  | 'U' :: rest => numberedChar? 8 rest
  | _ => none

/-- A text up to a double quote. The first argument bounds the steps, here and below. -/
def basicChars? : Nat → Reader (List Char)
  | 0, _ => none
  | _ + 1, [] => none
  | fuel + 1, c :: rest =>
    if c = '"' then some ([], rest)
    else if c = '\\' then do
      let (c, rest) ← escaped? rest
      let (chars, rest) ← basicChars? fuel rest
      return (c :: chars, rest)
    else if isPlain c then (basicChars? fuel rest).map fun (chars, rest) => (c :: chars, rest)
    else none

def literalChars? : Reader (List Char)
  | [] => none
  | c :: rest =>
    if c = '\'' then some ([], rest)
    else if isPlain c then (literalChars? rest).map fun (chars, rest) => (c :: chars, rest)
    else none

def skipSpace : Nat → List Char → List Char
  | 0, text => text
  | fuel + 1, text =>
    let text := skipBlanks text
    match newline? text with
    | some rest => skipSpace fuel rest
    | none => text

/-- The text behind a line end that a backslash hides, together with all space behind it. -/
def hiddenLineEnd? (rest : List Char) : Option (List Char) :=
  (newline? (skipBlanks rest)).map fun rest => skipSpace rest.length rest

/-- A text of several lines up to three quotes. One or two quotes in front of those belong to the
text. -/
def longChars? (quote : Char) (escapes : Bool) : Nat → Reader (List Char)
  | 0, _ => none
  | _ + 1, [] => none
  | fuel + 1, c :: rest =>
    if c = quote then
      let quotes := (c :: rest).takeWhile (· = quote)
      if 3 ≤ quotes.length then
        let inner := min (quotes.length - 3) 2
        some (List.replicate inner quote, (c :: rest).drop (inner + 3))
      else
        (longChars? quote escapes fuel ((c :: rest).drop quotes.length)).map fun (chars, rest) =>
          (quotes ++ chars, rest)
    else if c = '\\' && escapes then
      match hiddenLineEnd? rest with
      | some rest => longChars? quote escapes fuel rest
      | none => do
        let (c, rest) ← escaped? rest
        let (chars, rest) ← longChars? quote escapes fuel rest
        return (c :: chars, rest)
    else
      match newline? (c :: rest) with
      | some rest =>
        (longChars? quote escapes fuel rest).map fun (chars, rest) => ('\n' :: chars, rest)
      | none =>
        if isPlain c then
          (longChars? quote escapes fuel rest).map fun (chars, rest) => (c :: chars, rest)
        else none

/-- A line end right behind the opening quotes does not count. -/
def longText? (quote : Char) (escapes : Bool) (text : List Char) : Option (List Char × List Char) :=
  longChars? quote escapes (text.length + 1) ((newline? text).getD text)

def asText : List Char × List Char → String × List Char
  | (chars, rest) => (String.ofList chars, rest)

def shortString? : Reader String
  | '"' :: rest => (basicChars? (rest.length + 1) rest).map asText
  | '\'' :: rest => (literalChars? rest).map asText
  | _ => none

def string? : Reader String
  | '"' :: '"' :: '"' :: rest => (longText? '"' true rest).map asText
  | '\'' :: '\'' :: '\'' :: rest => (longText? '\'' false rest).map asText
  | text => shortString? text

-- ---------------------------------------------------------------------------
-- Numbers
-- ---------------------------------------------------------------------------

/-- Digits, each but the first behind at most one underscore. -/
def moreDigits (isDigit : Char → Bool) : List Char → List Char × List Char
  | [] => ([], [])
  | c :: rest =>
    if isDigit c then
      let (digits, rest) := moreDigits isDigit rest
      (c :: digits, rest)
    else
      match c, rest with
      | '_', d :: rest =>
        if isDigit d then
          let (digits, rest) := moreDigits isDigit rest
          (d :: digits, rest)
        else ([], c :: d :: rest)
      | _, _ => ([], c :: rest)

def digits? (isDigit : Char → Bool) : Reader (List Char)
  | [] => none
  | c :: rest =>
    if isDigit c then
      let (digits, rest) := moreDigits isDigit rest
      some (c :: digits, rest)
    else none

def fit? (n : Int) : Option Value :=
  if -twoTo 63 ≤ n && n < twoTo 63 then some (.integer n) else none

def isDigitOf (base : Nat) (c : Char) : Bool := (hexValue? c).any (· < base)

def based? (base : Nat) (text : List Char) : Option (Value × List Char) := do
  let (digits, rest) ← digits? (isDigitOf base) text
  return (← fit? (← ofDigits? base digits), rest)

/-- The digits in front of point and exponent: no zero leads others. -/
def whole? : Reader (List Char)
  | '0' :: rest => some (['0'], rest)
  | text => digits? Decimal.isDigit text

def exponent? (text : List Char) : Option (Option Int × List Char) :=
  match text with
  | [] => some (none, [])
  | c :: rest =>
    if c = 'e' || c = 'E' then do
      let (negative, rest) := Decimal.splitSign rest
      let (digits, rest) ← digits? Decimal.isDigit rest
      let n : Int := Decimal.digitsValue 0 digits
      return (some (if negative then -n else n), rest)
    else some (none, c :: rest)

def places? : List Char → Option (Option (List Char) × List Char)
  | '.' :: rest => (digits? Decimal.isDigit rest).map fun (digits, rest) => (some digits, rest)
  | text => some (none, text)

/-- A decimal number. One with point or exponent must not be too large, unless it is negative. -/
def decimal? (text : List Char) : Option (Value × List Char) := do
  let (negative, text) := Decimal.splitSign text
  let (whole, text) ← whole? text
  let (places, text) ← places? text
  let (exponent, rest) ← exponent? text
  match places, exponent with
  | none, none =>
    let n : Int := Decimal.digitsValue 0 whole
    return (← fit? (if negative then -n else n), rest)
  | places, exponent =>
    let places := places.getD []
    let x := Decimal.toBinary64 ⟨negative, Decimal.digitsValue 0 (whole ++ places),
      exponent.getD 0 - places.length⟩
    if x.isFinite || negative then some (.real x, rest) else none

def infinity (negative : Bool) : Value := .real (.ofMagnitude negative Binary64.infinityBits)

def notANumber (negative : Bool) : Value := .real (.ofMagnitude negative (Binary64.infinityBits + twoTo 51))

def number? (text : List Char) : Option (Value × List Char) :=
  match text with
  | '0' :: 'x' :: rest => based? 16 rest
  | '0' :: 'o' :: rest => based? 8 rest
  | '0' :: 'b' :: rest => based? 2 rest
  | text =>
    let (negative, rest) := Decimal.splitSign text
    match rest with
    | 'i' :: 'n' :: 'f' :: rest => some (infinity negative, rest)
    | 'n' :: 'a' :: 'n' :: rest => some (notANumber negative, rest)
    | _ => decimal? text

-- ---------------------------------------------------------------------------
-- Dates and times
-- ---------------------------------------------------------------------------

def field? (count low high : Nat) (text : List Char) : Option (Nat × List Char) :=
  let digits := text.take count
  if digits.length = count && digits.all Decimal.isDigit then
    let n := Decimal.digitsValue 0 digits
    if low ≤ n && n ≤ high then some (n, text.drop count) else none
  else none

def mark? (c : Char) : List Char → Option (List Char)
  | d :: rest => if d = c then some rest else none
  | [] => none

def daysIn (year month : Nat) : Nat :=
  if month = 2 then
    if (year % 4 = 0 && year % 100 ≠ 0) || year % 400 = 0 then 29 else 28
  else if month = 4 || month = 6 || month = 9 || month = 11 then 30
  else 31

def date? (text : List Char) : Option (List Char) := do
  let (year, text) ← field? 4 0 9999 text
  let (month, text) ← field? 2 1 12 (← mark? '-' text)
  let (_, text) ← field? 2 1 (daysIn year month) (← mark? '-' text)
  return text

/-- The text behind a time; a second may be a leap second. -/
def time? (text : List Char) : Option (List Char) := do
  let (_, text) ← field? 2 0 23 text
  let (_, text) ← field? 2 0 59 (← mark? ':' text)
  let (_, text) ← field? 2 0 60 (← mark? ':' text)
  match text with
  | '.' :: rest =>
    let (digits, rest) := Decimal.splitDigits rest
    if digits.isEmpty then none else some rest
  | _ => some text

def offset? (text : List Char) : Option (List Char) :=
  match text with
  | [] => some []
  | c :: rest =>
    if c = 'Z' || c = 'z' then some rest
    else if c = '+' || c = '-' then do
      let (_, rest) ← field? 2 0 23 rest
      let (_, rest) ← field? 2 0 59 (← mark? ':' rest)
      return rest
    else some (c :: rest)

def timeOfDay? (text : List Char) : Option (List Char) :=
  match text with
  | [] => some []
  | c :: rest =>
    if c = 'T' || c = 't' || (c = ' ' && (rest.head?.map Decimal.isDigit).getD false) then
      (time? rest).bind offset?
    else some (c :: rest)

def momentEnd? (text : List Char) : Option (List Char) :=
  match date? text with
  | some rest => timeOfDay? rest
  | none => time? text

/-- Whether a text can only be read as a date or time. -/
def startsMoment (text : List Char) : Bool :=
  let digits := text.takeWhile Decimal.isDigit
  (digits.length = 4 && text[4]? == some '-') || (digits.length = 2 && text[2]? == some ':')

def moment? (text : List Char) : Option (Value × List Char) :=
  (momentEnd? text).map fun rest =>
    (.moment (String.ofList (text.take (text.length - rest.length))), rest)

-- ---------------------------------------------------------------------------
-- Any of them
-- ---------------------------------------------------------------------------

def word? : List Char → List Char → Option (List Char)
  | [], text => some text
  | c :: word, text => (mark? c text).bind (word? word)

def literal? (text : List Char) : Option (Value × List Char) :=
  match text with
  | [] => none
  | c :: _ =>
    if c = '"' || c = '\'' then (string? text).map fun (s, rest) => (.string s, rest)
    else if c = 't' then (word? ['t', 'r', 'u', 'e'] text).map (.boolean true, ·)
    else if c = 'f' then (word? ['f', 'a', 'l', 's', 'e'] text).map (.boolean false, ·)
    else if startsMoment text then moment? text
    else number? text

end HomeHub.Toml
