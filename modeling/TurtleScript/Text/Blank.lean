-- White space of a script: the twenty-five code points with the Unicode
-- property White_Space. Runs of them separate words, and lines typed at a
-- prompt are trimmed by them.

namespace TurtleScript

/-! ## The property -/

/-- The code points with the property White_Space, as ranges with both ends in them. -/
def blankRanges : List (Nat × Nat) :=
  [(0x9, 0xD), (0x20, 0x20), (0x85, 0x85), (0xA0, 0xA0), (0x1680, 0x1680), (0x2000, 0x200A),
    (0x2028, 0x2029), (0x202F, 0x202F), (0x205F, 0x205F), (0x3000, 0x3000)]

/-- A white space character. -/
def isBlank (c : Char) : Bool :=
  blankRanges.any fun (first, last) => decide (first ≤ c.toNat) && decide (c.toNat ≤ last)

example : (blankRanges.map fun (first, last) => last + 1 - first).sum = 25 := by decide

/-! ## Trimming -/

/-- The characters without the white space at both ends. -/
def trimBlanks (cs : List Char) : List Char :=
  ((cs.dropWhile isBlank).reverse.dropWhile isBlank).reverse

end TurtleScript
