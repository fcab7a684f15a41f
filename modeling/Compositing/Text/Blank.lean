/-
Compositing.Text.Blank — white space in Unicode.

The twenty-five characters with the property White_Space, and removing
them at both ends of a text.
-/
namespace Compositing.Text

/-- The code points with the property White_Space, as ranges. -/
def blankRanges : List (Nat × Nat) :=
  [(0x09, 0x0D), (0x20, 0x20), (0x85, 0x85), (0xA0, 0xA0),
    (0x1680, 0x1680), (0x2000, 0x200A), (0x2028, 0x2029),
    (0x202F, 0x202F), (0x205F, 0x205F), (0x3000, 0x3000)]

/-- The character is white space. -/
def isBlank (c : Char) : Bool :=
  blankRanges.any fun (first, last) =>
    decide (first ≤ c.toNat ∧ c.toNat ≤ last)

/-- A text without the white space at its ends. -/
def trim (text : List Char) : List Char :=
  ((text.dropWhile isBlank).reverse.dropWhile isBlank).reverse

end Compositing.Text
