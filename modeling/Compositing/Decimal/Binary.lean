/-
Compositing.Decimal.Binary — a floating-point number as an exact
quantity.

A finite binary64 number is `significand · 2 ^ exponent`. The reals that
round to it form an interval; its ends lie halfway to the neighbouring
numbers and belong to it exactly when the significand is even. All
comparisons are made between naturals, by multiplying out.
-/
namespace Compositing.Decimal

/-- A power of ten. -/
def powTen (n : Nat) : Nat :=
  Nat.pow 10 n

/-- A power of two. -/
def powTwo (n : Nat) : Nat :=
  Nat.pow 2 n

/-- The size of a finite binary64 number. -/
structure Binary where
  significand : Nat
  exponent : Int
  /-- The number is a power of two whose lower neighbour is only half as
  far away as its upper one. -/
  narrowBelow : Bool
  deriving DecidableEq, Repr

/-- The size that the bits of a finite number stand for; the sign bit is
left out. -/
def Binary.ofBits (bits : UInt64) : Binary :=
  let biased := (bits >>> 52 &&& 0x7FF).toNat
  let fraction := (bits &&& 0xFFFFFFFFFFFFF).toNat
  if biased = 0 then
    { significand := fraction, exponent := -1074, narrowBelow := false }
  else
    { significand := powTwo 52 + fraction
      exponent := (biased : Int) - 1075
      narrowBelow := fraction = 0 && 1 < biased }

/-- A decimal number `digits · 10 ^ exponent`. -/
structure Scaled where
  digits : Nat
  exponent : Int
  deriving DecidableEq, Repr

/-- Compare `d` with `n · 2 ^ j`. -/
def Scaled.compareBinary (d : Scaled) (n : Nat) (j : Int) : Ordering :=
  compare (d.digits * powTen d.exponent.toNat * powTwo (-j).toNat)
    (n * powTwo j.toNat * powTen (-d.exponent).toNat)

/-- `d` is one of the reals that round to `x`. -/
def Binary.isReadFrom (x : Binary) (d : Scaled) : Bool :=
  let quarter := x.exponent - 2
  let low := 4 * x.significand - (if x.narrowBelow then 1 else 2)
  let high := 4 * x.significand + 2
  match d.compareBinary low quarter, d.compareBinary high quarter with
  | .gt, .lt => true
  | .eq, .lt | .gt, .eq | .eq, .eq => x.significand % 2 = 0
  | _, _ => false

/-- The number as a fraction of naturals. -/
def Binary.fraction (x : Binary) : Nat × Nat :=
  (x.significand * powTwo x.exponent.toNat, powTwo (-x.exponent).toNat)

/-- The number as a decimal, exactly. -/
def Binary.exact (x : Binary) : Scaled :=
  if 0 ≤ x.exponent then
    { digits := x.significand * powTwo x.exponent.toNat, exponent := 0 }
  else
    { digits := x.significand * Nat.pow 5 (-x.exponent).toNat
      exponent := x.exponent }

end Compositing.Decimal
