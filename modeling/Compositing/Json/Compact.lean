/-
Compositing.Json.Compact — values written as JSON without blanks.

Members come by ascending key, strings escape only what they must, and a
floating-point number always shows that it is one: `1.0`, `1e-7`,
`1e+16`.
-/
import Compositing.Json.Value
import Compositing.Decimal.Layout

namespace Compositing.Json

/-- A digit of base sixteen, in lower case. -/
def hexDigit (n : Nat) : Char :=
  Nat.digitChar (n % 16)

/-- A character inside a quoted string. Quotes, backslashes and control
characters are escaped, all else stands for itself. -/
def escapeChar (c : Char) : List Char :=
  if c = '"' then ['\\', '"']
  else if c = '\\' then ['\\', '\\']
  else if c.toNat = 8 then ['\\', 'b']
  else if c.toNat = 12 then ['\\', 'f']
  else if c = '\n' then ['\\', 'n']
  else if c = '\r' then ['\\', 'r']
  else if c = '\t' then ['\\', 't']
  else if c.toNat < 32 then
    ['\\', 'u', '0', '0', hexDigit (c.toNat / 16), hexDigit c.toNat]
  else [c]

/-- A string in quotes. -/
def quote (s : String) : List Char :=
  '"' :: (s.toList.flatMap escapeChar ++ ['"'])

/-- A finite number as JSON. From `1e-5` up to below `1e16` it is
positional with at least one decimal, elsewhere it has an exponent; of
two equally near texts the one with an even last digit is taken. -/
def floatText (x : Float) : List Char :=
  let d := (Decimal.size x).shortest .toEven
  Decimal.signed x <|
    if -5 ≤ d.leading ∧ d.leading ≤ 15 then
      if 0 ≤ d.exponent then d.positional ++ ['.', '0'] else d.positional
    else d.scientific

/-- Texts joined by a separator. -/
def joinWith (separator : List Char) : List (List Char) → List Char
  | [] => []
  | [text] => text
  | text :: rest => text ++ separator ++ joinWith separator rest

namespace Value

mutual

/-- A value as compact JSON. -/
def compact : Value → List Char
  | .null => "null".toList
  | .bool b => if b then "true".toList else "false".toList
  | .int n => Decimal.integer n
  | .float x => floatText x
  | .str s => quote s
  | .arr items => '[' :: (joinWith [','] (compactItems items) ++ [']'])
  | .obj members =>
    '\x7b' :: (joinWith [','] (compactMembers members) ++ ['\x7d'])

/-- The texts of the items of an array. -/
def compactItems : List Value → List (List Char)
  | [] => []
  | item :: rest => compact item :: compactItems rest

/-- The texts of the members of an object. -/
def compactMembers : List (String × Value) → List (List Char)
  | [] => []
  | (key, value) :: rest =>
    (quote key ++ ':' :: compact value) :: compactMembers rest

end

end Value

/-! ## Examples -/

example : floatText 2.98023223876953125e-8 =
    "2.9802322387695312e-8".toList := by decide +kernel

example : floatText 1e15 = "1000000000000000.0".toList := by decide +kernel

example : floatText 1e16 = "1e+16".toList := by decide +kernel

end Compositing.Json
