-- Numbers in a script: an optional sign, digits with an optional point, and
-- an optional power of ten. The double nearest to the exact value is taken;
-- a number beyond the doubles is no number.
import TurtleScript.Decimal.Digits

namespace TurtleScript.Decimal

/-- The parts of a decimal: `± digits · 10 ^ exponent`. -/
structure Literal where
  negative : Bool
  digits : List Char
  exponent : Int
  deriving DecidableEq, Repr

/-! ## Reading the parts -/

/-- A sign at the front, and what follows it. -/
def takeSign : List Char → Bool × List Char
  | '-' :: cs => (true, cs)
  | '+' :: cs => (false, cs)
  | cs => (false, cs)

/-- A whole number with an optional sign, and nothing after it. -/
def signedWhole? (cs : List Char) : Option Int :=
  let (negative, ds) := takeSign cs
  if ds ≠ [] ∧ ds.all isDigit then
    some (if negative then -(readDigits 0 ds : Int) else (readDigits 0 ds : Int))
  else none

/-- The digits after an optional point, and what follows them. -/
def takeFraction : List Char → List Char × List Char
  | '.' :: cs => (cs.takeWhile isDigit, cs.dropWhile isDigit)
  | cs => ([], cs)

/-- The power of ten at the end: nothing, or `e` and a whole number. -/
def exponent? : List Char → Option Int
  | [] => some 0
  | c :: cs => if c = 'e' ∨ c = 'E' then signedWhole? cs else none

/-- The parts of a decimal. At least one digit must stand before or after the point. -/
def literal? (cs : List Char) : Option Literal :=
  let (negative, unsigned) := takeSign cs
  let whole := unsigned.takeWhile isDigit
  let (fraction, rest) := takeFraction (unsigned.dropWhile isDigit)
  if whole = [] ∧ fraction = [] then none
  else (exponent? rest).map fun power =>
    { negative, digits := whole ++ fraction, exponent := power - fraction.length }

/-! ## The nearest double -/

/-- The double nearest to `n · 10 ^ exponent`; infinite if that lies beyond them. Powers
that leave nothing to decide are not multiplied out. -/
def nearest (n : Nat) (exponent : Int) : Float :=
  let lead := (digits n).length + exponent
  if n = 0 ∨ lead < -400 then 0.0
  else if 400 < lead then Float.ofScientific 1 false 400
  else if exponent < 0 then Float.ofScientific n true exponent.natAbs
  else Float.ofScientific n false exponent.natAbs

def Literal.toFloat (l : Literal) : Float :=
  let size := nearest (readDigits 0 l.digits) l.exponent
  if l.negative then -size else size

/-- The finite double that a text stands for, if it is a number. -/
def number? (s : String) : Option Float :=
  match literal? s.toList with
  | none => none
  | some l => if l.toFloat.isFinite then some l.toFloat else none

end TurtleScript.Decimal
