/-
Compositing.Json.Number — number tokens.

A token without fraction and exponent that fits 64 bits, signed or
unsigned, is an integer; `-0` and every other token is a floating-point
number. Its digits fill a significand of 64 bits, which is rounded to
nearest and then multiplied or divided by a power of ten; so there are
two roundings, and `7.281e+27` is the number below the nearest one. A
token too large for a floating-point number has no value.
-/
import Compositing.Json.Document

namespace Compositing.Json.Number

/-! ## Digits -/

/-- A natural with one more decimal digit. -/
def append (n : Nat) (digit : Char) : Nat :=
  10 * n + (digit.toNat - '0'.toNat)

/-- The natural that a run of decimal digits stands for. -/
def natural (digits : List Char) : Nat :=
  digits.foldl append 0

/-- Significands are below this bound. -/
def bound : Nat := 0x10000000000000000

/-- A significand with the digits behind it, up to the first that does
not fit; and how many are left over from there on. -/
def fill (n : Nat) : List Char → Nat × Nat
  | [] => (n, 0)
  | digit :: rest =>
    if append n digit < bound then fill (append n digit) rest
    else (n, rest.length + 1)

/-! ## Scaling -/

/-- The largest exponent of a power of ten that is finite. -/
def largest : Nat := 308

/-- The floating-point number nearest to `10 ^ k`, for `k` up to
`largest`. -/
def power (k : Nat) : Float := Float.ofScientific 1 false k

/-- A significand times `10 ^ k`, unless that is too large. -/
def grow? (x : Float) (k : Nat) : Option Float :=
  if k ≤ largest then
    let y := x * power k
    if y.isFinite then some y else none
  else if x == 0.0 then some x
  else none

/-- A significand divided by `10 ^ k`, in two steps if `k` is above
`largest`. Nothing is left of a significand after two steps of the
largest size, so what goes beyond them is passed over. -/
def shrink (x : Float) (k : Nat) : Float :=
  x / power (min k largest) / power (min (k - largest) largest)

/-- The floating-point number for `significand · 10 ^ exponent`, unless
it is too large. -/
def float? (significand : Nat) (exponent : Int) : Option Float :=
  let x := Float.ofScientific significand false 0
  if exponent < 0 then some (shrink x exponent.natAbs)
  else grow? x exponent.natAbs

/-! ## Tokens -/

/-- The fraction behind the digits before the point, and the rest. -/
def fraction? : List Char → Option (List Char × List Char)
  | '.' :: rest =>
    let digits := rest.takeWhile Char.isDigit
    if digits.isEmpty then none
    else some (digits, rest.dropWhile Char.isDigit)
  | rest => some ([], rest)

/-- An exponent that ends the token; `none` inside means there is none. -/
def exponent? : List Char → Option (Option Int)
  | [] => some none
  | e :: rest =>
    if e = 'e' ∨ e = 'E' then
      let negative := rest.head? = some '-'
      let digits :=
        if negative ∨ rest.head? = some '+' then rest.tail else rest
      if digits.isEmpty || !digits.all Char.isDigit then none
      else
        let n : Int := natural digits
        some (some (if negative then -n else n))
    else none

/-- An integer of 64 bits, signed or not. Minus zero is none, for only a
floating-point zero keeps its sign. -/
def integer? (negative : Bool) (n : Nat) : Option Int :=
  if negative then
    if 0 < n ∧ n ≤ 0x8000000000000000 then some (-n) else none
  else if n < bound then some n
  else none

/-- The number of the parts of a token: its digits before and behind the
point, and its exponent if it has one. -/
def ofParts (negative : Bool) (whole places : List Char)
    (exponent : Option Int) : Document :=
  let (head, beyond) := fill 0 whole
  let (significand, dropped) := fill head places
  let taken : Int := places.length - dropped
  let float :=
    match float? significand (beyond - taken + exponent.getD 0) with
    | some x => .float (if negative then -x else x)
    | none => .unreadable
  if places.isEmpty && exponent.isNone && beyond = 0 then
    match integer? negative head with
    | some n => .int n
    | none => float
  else float

/-- A number token. -/
def read (token : List Char) : Document :=
  let negative := token.head? == some '-'
  let body := if negative then token.tail else token
  let whole := body.takeWhile Char.isDigit
  if whole.isEmpty || (whole.head? == some '0' && 1 < whole.length) then
    .broken
  else
    match fraction? (body.dropWhile Char.isDigit) with
    | none => .broken
    | some (places, rest) =>
      match exponent? rest with
      | none => .broken
      | some exponent => ofParts negative whole places exponent

end Compositing.Json.Number
