import HomeHub.Numeric.Binary64

/-!
# TOML values

What a configuration text says once it is read: values under keys, whether they were written in
tables with headers, under dotted keys or inline.
-/

namespace HomeHub.Toml

inductive Value where
  | string (text : String)
  | integer (value : Int)
  | real (value : Binary64)
  | boolean (value : Bool)
  /-- A date, a time, or both, as it is written. -/
  | moment (text : String)
  | array (items : List Value)
  | table (entries : List (String × Value))

end HomeHub.Toml
