/-
Compositing.Decimal.Layout — decimals written out.

`positional` writes every digit in its place, without an exponent;
`scientific` writes one digit before the point and a signed exponent.
`plain` is the positional text of a floating-point number.
-/
import Compositing.Decimal.Shortest

namespace Compositing.Decimal

/-- The decimal digits of a natural. -/
def natural (n : Nat) : List Char :=
  Nat.toDigits 10 n

/-- An integer in decimal. -/
def integer (n : Int) : List Char :=
  if n < 0 then '-' :: natural n.natAbs else natural n.natAbs

/-- A decimal with every digit in its place: zeros fill up to the point
on either side, and an integral value has none. -/
def Scaled.positional (d : Scaled) : List Char :=
  let digits := natural d.digits
  if 0 ≤ d.exponent then digits ++ List.replicate d.exponent.toNat '0'
  else
    let places := (-d.exponent).toNat
    if places < digits.length then
      digits.take (digits.length - places) ++
        '.' :: digits.drop (digits.length - places)
    else
      '0' :: '.' :: (List.replicate (places - digits.length) '0' ++ digits)

/-- The exponent of the leading digit. -/
def Scaled.leading (d : Scaled) : Int :=
  d.exponent + digitCount d.digits - 1

/-- A decimal with one digit before the point, and the exponent with its
sign: `1.5e+300`, `1e-7`. -/
def Scaled.scientific (d : Scaled) : List Char :=
  let mantissa :=
    match natural d.digits with
    | [] => []
    | [digit] => [digit]
    | digit :: rest => digit :: '.' :: rest
  let sign := if d.leading < 0 then '-' else '+'
  mantissa ++ 'e' :: sign :: natural d.leading.natAbs

/-- The sign bit of a number, which minus zero has too. -/
def isNegative (x : Float) : Bool :=
  x.toBits >>> 63 = 1

/-- Put the sign of a number in front of the text of its size. -/
def signed (x : Float) (size : List Char) : List Char :=
  if isNegative x then '-' :: size else size

/-- The size of a finite number. -/
def size (x : Float) : Binary :=
  Binary.ofBits x.toBits

/-- A finite number in the fewest digits that read back, positional; of
two equally near texts the larger. -/
def plain (x : Float) : List Char :=
  signed x ((size x).shortest .up).positional

/-! ## Examples -/

example : plain 0.1 = "0.1".toList := by decide +kernel

example : plain (-0.0) = "-0".toList := by decide +kernel

example : plain 2.98023223876953125e-8 =
    "0.000000029802322387695313".toList := by decide +kernel

end Compositing.Decimal
