-- Numbers of JSON text. An integer that fits in sixty-four bits is exact. Any
-- other number is scaled: its leading digits as far as they fit in sixty-four
-- bits, taken as a double, times or divided by a power of ten.
import TurtleScript.Decimal.Digits
import TurtleScript.Json.Value

namespace TurtleScript.Json

/-- The largest whole number that is kept exactly. -/
def maxWhole : Nat := 18446744073709551615

/-- The size of the smallest negative number that is kept exactly. -/
def maxBelowZero : Nat := 9223372036854775808

/-! ## The grammar -/

/-- A JSON number as it is written. A fraction or a power of ten may be absent. -/
structure Numeral where
  negative : Bool
  whole : List Char
  fraction : Option (List Char)
  power : Option Int

/-- The power of ten at the end of a number: nothing, or `e` and a whole number. -/
def power? : List Char → Option (Option Int)
  | [] => some none
  | c :: cs =>
    let (negative, ds) := match cs with
      | '-' :: ds => (true, ds)
      | '+' :: ds => (false, ds)
      | ds => (false, ds)
    if (c = 'e' ∨ c = 'E') ∧ ds ≠ [] ∧ ds.all Decimal.isDigit then
      let size : Int := Decimal.readDigits 0 ds
      some (some (if negative then -size else size))
    else none

/-- The number without its sign: digits without a leading zero, then a fraction of at least
one digit, then a power of ten. -/
def unsignedNumeral? (negative : Bool) (cs : List Char) : Option Numeral :=
  let whole := cs.takeWhile Decimal.isDigit
  if whole = [] ∨ (whole.head? = some '0' ∧ whole ≠ ['0']) then none
  else match cs.dropWhile Decimal.isDigit with
    | '.' :: rest =>
      let fraction := rest.takeWhile Decimal.isDigit
      if fraction = [] then none
      else (power? (rest.dropWhile Decimal.isDigit)).map fun power =>
        { negative, whole, fraction := some fraction, power }
    | rest => (power? rest).map fun power => { negative, whole, fraction := none, power }

/-- The parts of a number; nothing may stand around it. -/
def numeral? : List Char → Option Numeral
  | '-' :: cs => unsignedNumeral? true cs
  | cs => unsignedNumeral? false cs

/-! ## Scaling -/

/-- Digits that fit so far, and the power of ten they stand at. Once a digit does not fit,
the count is full. -/
structure Leading where
  digits : Nat
  exponent : Int
  full : Bool

/-- A digit before the point: one that no longer fits counts as a zero. -/
def Leading.takeWhole (l : Leading) (c : Char) : Leading :=
  let next := 10 * l.digits + Decimal.digitValue c
  if l.full ∨ maxWhole < next then { l with exponent := l.exponent + 1, full := true }
  else { l with digits := next }

/-- A digit after the point: one that no longer fits is dropped. -/
def Leading.takeFraction (l : Leading) (c : Char) : Leading :=
  let next := 10 * l.digits + Decimal.digitValue c
  if l.full ∨ maxWhole < next then { l with full := true }
  else { l with digits := next, exponent := l.exponent - 1 }

/-- The leading digits of a number and their power of ten. -/
def Numeral.leading (n : Numeral) : Leading :=
  let whole := n.whole.foldl Leading.takeWhole ⟨0, 0, false⟩
  let all := (n.fraction.getD []).foldl Leading.takeFraction { whole with full := false }
  { all with exponent := all.exponent + n.power.getD 0 }

/-- The double nearest to a power of ten. -/
def tenTo (n : Nat) : Float := Float.ofScientific 1 false n

/-- Divides by `10 ^ n`, in steps of at most `10 ^ 308`. -/
def scaleDown (x : Float) (n : Nat) : Float :=
  if n ≤ 308 then x / tenTo n
  else if x == 0.0 then x
  else scaleDown (x / tenTo 308) (n - 308)
termination_by n
decreasing_by omega

/-- Multiplies by `10 ^ n`. There is no result beyond the doubles. -/
def scaleUp? (x : Float) (n : Nat) : Option Float :=
  if n ≤ 308 then
    let y := x * tenTo n
    if y.isFinite then some y else none
  else if x == 0.0 then some x
  else none

/-- The double of a number, if it lies within the doubles. -/
def Numeral.float? (n : Numeral) : Option Float :=
  let l := n.leading
  let x := Float.ofNat l.digits
  let size := if l.exponent < 0 then some (scaleDown x l.exponent.natAbs)
    else scaleUp? x l.exponent.natAbs
  size.map fun y => if n.negative then -y else y

/-- The value of a number. Minus zero and integers beyond sixty-four bits are doubles. -/
def Numeral.value (n : Numeral) : Json :=
  let size := Decimal.readDigits 0 n.whole
  if n.fraction = none ∧ n.power = none ∧ n.negative = false ∧ size ≤ maxWhole then .int size
  else if n.fraction = none ∧ n.power = none ∧ n.negative = true ∧ 0 < size ∧ size ≤ maxBelowZero then
    .int (-size)
  else match n.float? with
    | some x => .float x
    | none => .unreadable

/-- The value of a number's text. -/
def number? (cs : List Char) : Option Json := (numeral? cs).map Numeral.value

end TurtleScript.Json
