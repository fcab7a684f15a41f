/-
Compositing.Decimal.Shortest — the fewest decimal digits that read back.

Of all decimals that round to a given number, `shortest` takes one with
the fewest digits, and of those the nearest. Two candidates can be
equally near; `Tie` says which of them is taken. The search tries one
digit, then two, and so on: on each grid only the two points around the
number can be the answer.
-/
import Compositing.Decimal.Binary

namespace Compositing.Decimal

/-- Which of two equally near decimals is taken. -/
inductive Tie where
  /-- The one whose last digit is even. -/
  | toEven
  /-- The larger one. -/
  | up
  deriving DecidableEq, Repr

/-- How many digits a natural has; zero has one. -/
def digitCount (n : Nat) : Nat :=
  (Nat.toDigits 10 n).length

/-- The least `k` with `x < 10 ^ k`, for a positive `x`. -/
def Binary.magnitude (x : Binary) : Int :=
  let (num, den) := x.fraction
  if den ≤ num then digitCount (num / den)
  else 1 - (digitCount ((den - 1) / num) : Int)

/-- The largest multiple of `10 ^ grid` that is at most `x`, in units of
the grid. -/
def Binary.floorOn (x : Binary) (grid : Int) : Nat :=
  let (num, den) := x.fraction
  num * powTen (-grid).toNat / (den * powTen grid.toNat)

/-- The point of a grid that stands for `x`, if one of the two points
around `x` reads back. -/
def Binary.nearestOn (tie : Tie) (x : Binary) (grid : Int) :
    Option Scaled :=
  let digits := x.floorOn grid
  let below : Scaled := { digits := digits, exponent := grid }
  let above : Scaled := { digits := digits + 1, exponent := grid }
  match x.isReadFrom below, x.isReadFrom above with
  | false, false => none
  | true, false => some below
  | false, true => some above
  | true, true =>
    let middle : Scaled := { digits := 2 * digits + 1, exponent := grid }
    match middle.compareBinary (2 * x.significand) x.exponent with
    | .gt => some below
    | .lt => some above
    | .eq =>
      match tie with
      | .up => some above
      | .toEven => some (if digits % 2 = 0 then below else above)

/-- Move trailing zeros of the digits into the exponent. -/
def Scaled.strip (d : Scaled) : Scaled :=
  let zeros :=
    ((Nat.toDigits 10 d.digits).reverse.takeWhile (· = '0')).length
  { digits := d.digits / powTen zeros, exponent := d.exponent + zeros }

/-- The fewest digits that read back to `x`. Seventeen always suffice;
should none be found the exact value is given. -/
def Binary.shortest (tie : Tie) (x : Binary) : Scaled :=
  if x.significand = 0 then { digits := 0, exponent := 0 }
  else
    let top := x.magnitude
    let found := (List.range 17).findSome? fun i : Nat =>
      x.nearestOn tie (top - 1 - (i : Int))
    (found.getD x.exact).strip

end Compositing.Decimal
