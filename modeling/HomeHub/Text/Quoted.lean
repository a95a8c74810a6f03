import HomeHub.Text.Printable

/-!
# Quoted text

A text between double quotes that shows every character: quotes and backslashes behind a
backslash, line feed, carriage return, tab and NUL as a letter, and what has no visible form of
its own by its number. The form is also a string literal of the generated source.
-/

namespace HomeHub.Text

def hexDigits (n : Nat) : List Char :=
  Nat.toDigits 16 n

def escapeByNumber (c : Char) : List Char :=
  '\\' :: 'u' :: '\x7b' :: (hexDigits c.toNat ++ ['\x7d'])

def escapeChar (c : Char) : List Char :=
  if c = '\x00' then ['\\', '0']
  else if c = '\t' then ['\\', 't']
  else if c = '\r' then ['\\', 'r']
  else if c = '\n' then ['\\', 'n']
  else if c = '\\' then ['\\', '\\']
  else if c = '"' then ['\\', '"']
  else if isCombining c || !isPrintable c then escapeByNumber c
  else [c]

def quotedChars (text : List Char) : List Char :=
  '"' :: (text.flatMap escapeChar ++ ['"'])

def quoted (text : String) : String :=
  String.ofList (quotedChars text.toList)

def quotedList (texts : List String) : String :=
  "[" ++ ", ".intercalate (texts.map quoted) ++ "]"

end HomeHub.Text
