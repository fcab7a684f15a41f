/-
Compositing.Program.Literal — values written in program text.

Program text has numbers without exponents and arrays with blanks
between their items; integral values have no fraction and zero no sign.
Strings are quoted as in JSON, and a whole object is compact JSON.
-/
import Compositing.Json.Compact

namespace Compositing.Program

open Json (Value)

/-- A number in program text. What is no finite number counts as zero. -/
def number (x : Float) : List Char :=
  if x.isFinite && x != 0.0 then Decimal.plain x else ['0']

mutual

/-- A value in program text. -/
def literal : Value → List Char
  | .null => Value.null.compact
  | .bool b => (Value.bool b).compact
  | .int n => Decimal.integer n
  | .float x => number x
  | .str s => Json.quote s
  | .arr items =>
    '[' :: (Json.joinWith [',', ' '] (literals items) ++ [']'])
  | .obj members => (Value.obj members).compact

/-- The items of an array in program text. -/
def literals : List Value → List (List Char)
  | [] => []
  | item :: rest => literal item :: literals rest

end

/-! ## Examples -/

example : number (0.0 / 0.0) = ['0'] := by decide +kernel

example : number (-0.0) = ['0'] := by decide +kernel

example : number 1e21 = "1000000000000000000000".toList := by
  decide +kernel

end Compositing.Program
