-- Ranges of bytes that a request asks for. A list of ranges is taken as a
-- whole: one that is badly written, lies outside or overlaps another spoils
-- all of them.
import TurtleScript.Decimal.Digits
import TurtleScript.Text.Blank
import TurtleScript.Text.Split

namespace TurtleScript.Web

/-- A range that is asked for: from one byte to another, from a byte to the end, or so many bytes
at the end. -/
inductive Span where
  | between (first last : Nat)
  | fromByte (first : Nat)
  | atEnd (count : Nat)
  deriving DecidableEq, Repr

/-! ## Reading -/

/-- The largest number in a range. -/
def maxOffset : Nat := 18446744073709551615

/-- A number without zeros in front. -/
def offset? (cs : List Char) : Option Nat :=
  let n := Decimal.readDigits 0 cs
  if cs = [] ∨ !cs.all Decimal.isDigit ∨ (cs.head? = some '0' ∧ cs ≠ ['0']) ∨ maxOffset < n then none
  else some n

/-- The range that a piece of the header stands for. -/
def Span.ofText? (cs : List Char) : Option Span :=
  match splitAll '-' cs with
  | [[], count] => (offset? count).map .atEnd
  | [first, []] => (offset? first).map .fromByte
  | [first, last] => do return .between (← offset? first) (← offset? last)
  | _ => none

/-- A piece without the one blank that may stand in front of it. -/
def unspaced? (cs : List Char) : Option (List Char) :=
  match cs with
  | c :: rest =>
    if rest.any isBlank then none
    else if isBlank c then (if rest = [] then none else some rest)
    else some cs
  | [] => some []

/-- What stands at the front of the header. -/
def unitOfRanges : List Char := "bytes=".toList

/-- The ranges of a header. Only those after the first may have a blank in front. -/
def spans? (cs : List Char) : Option (List Span) :=
  let pieces := cs.drop unitOfRanges.length
  if cs.take unitOfRanges.length = unitOfRanges ∧ !pieces.head?.any isBlank then
    (splitAll ',' pieces).mapM fun piece => (unspaced? piece).bind Span.ofText?
  else none

/-! ## Resolving -/

/-- The first and last byte of a range of a file of `size` bytes, if it lies in the file. A file
without bytes has the range at its very start. -/
def Span.resolve? (size : Nat) : Span → Option (Nat × Nat)
  | .between first last =>
    if first ≤ min last (size - 1) then some (first, min last (size - 1)) else none
  | .fromByte first => if first ≤ size - 1 then some (first, size - 1) else none
  | .atEnd count => if 0 < count ∧ count ≤ size then some (size - count, size - 1) else none

/-- Two ranges have a byte in common. -/
def overlap (a b : Nat × Nat) : Bool := a.1 ≤ b.2 && b.1 ≤ a.2

/-- No two of the ranges overlap. -/
def areApart : List (Nat × Nat) → Bool
  | [] => true
  | a :: ranges => ranges.all (!overlap a ·) && areApart ranges

/-- The ranges that a header asks for in a file of `size` bytes, if all of them are well written,
lie in the file and are apart. -/
def ranges? (size : Nat) (header : String) : Option (List (Nat × Nat)) := do
  let ranges ← (← spans? header.toList).mapM (Span.resolve? size)
  if areApart ranges then some ranges else none

/-- The part of some bytes from the first to the last of a range. -/
def slice (range : Nat × Nat) (bytes : List UInt8) : List UInt8 :=
  (bytes.drop range.1).take (range.2 + 1 - range.1)

end TurtleScript.Web
