-- The shortest decimal of a double: the fewest digits that read back as the
-- same double, and of those the nearest. Everything is decided in whole
-- numbers, on the quotient that the double stands for.
import TurtleScript.Decimal.Binary
import TurtleScript.Decimal.Digits

namespace TurtleScript.Decimal

/-! ## Places -/

/-- `10 ^ place ≤ num / den`. -/
def reaches (num den : Nat) : Int → Bool
  | .ofNat place => decide (den * Nat.pow 10 place ≤ num)
  | .negSucc place => decide (den ≤ num * Nat.pow 10 (place + 1))

/-- The place of the leading digit of `num / den`: the largest power of ten that it
reaches. The binary logarithm leaves three candidates. -/
def leadingPlace (num den : Nat) : Int :=
  let guess := (((num.log2 : Int) - den.log2) * 30103) / 100000
  if reaches num den (guess + 1) then guess + 1
  else if reaches num den guess then guess
  else guess - 1

/-- `num / den` in units of `10 ^ place`, as a quotient. -/
def inUnits (num den : Nat) : Int → Nat × Nat
  | .ofNat place => (num, den * Nat.pow 10 place)
  | .negSucc place => (num * Nat.pow 10 (place + 1), den)

/-! ## The reals that round to a double -/

/-- An interval of quotients with one denominator, around a value. The ends belong to it
if `closed`. -/
structure Interval where
  low : Nat
  value : Nat
  high : Nat
  den : Nat
  closed : Bool

/-- The reals that round to `mantissa · 2 ^ exponent`. Below a power of two the doubles lie
twice as close. A tie goes to the even mantissa, so the ends belong to an even one. -/
def roundingInterval (mantissa : Nat) (exponent : Int) : Interval :=
  let (num, den) := Binary.fraction mantissa exponent
  let half := (Binary.fraction 1 exponent).1
  let below := if mantissa = Binary.leadingBit ∧ exponent ≠ -1074 then half else 2 * half
  { low := 4 * num - below, value := 4 * num, high := 4 * num + 2 * half, den := 4 * den,
    closed := mantissa % 2 = 0 }

/-- `c · 10 ^ place` lies in the interval. -/
def Interval.holds (i : Interval) (place : Int) (c : Nat) : Bool :=
  let (low, den) := inUnits i.low i.den place
  let (high, _) := inUnits i.high i.den place
  if i.closed then decide (low ≤ c * den) && decide (c * den ≤ high)
  else decide (low < c * den) && decide (c * den < high)

/-! ## The search -/

/-- Of the two neighbours of the value on the grid of `10 ^ place` the one in the interval;
of two the nearer, and of two as near the even one. -/
def Interval.neighbour? (i : Interval) (place : Int) : Option Nat :=
  let (num, den) := inUnits i.value i.den place
  let down := num / den
  let up := down + 1
  match i.holds place down, i.holds place up with
  | false, false => none
  | true, false => some down
  | false, true => some up
  | true, true =>
    let past := 2 * (num % den)
    if past < den then some down
    else if den < past then some up
    else some (if down % 2 = 0 then down else up)

/-- Digits `d₁ d₂ …` that stand for `d₁.d₂… · Nat.pow 10 place`. -/
structure Scientific where
  digits : List Char
  place : Int

/-- A whole number of units of `Nat.pow 10 place`, without zeros at the end. -/
def Scientific.ofUnits (c : Nat) (place : Int) : Scientific :=
  let ds := Decimal.digits c
  { digits := (ds.reverse.dropWhile (· = '0')).reverse, place := place + (ds.length - 1 : Nat) }

/-- The first grid with a neighbour in the interval, from `used` digits on; seventeen digits
always have one. -/
def Interval.search (i : Interval) (top : Int) : Nat → Nat → Scientific
  | 0, used => Scientific.ofUnits ((inUnits i.value i.den (top - used)).1 /
      (inUnits i.value i.den (top - used)).2) (top - used)
  | left + 1, used =>
    match i.neighbour? (top - used) with
    | some c => Scientific.ofUnits c (top - used)
    | none => i.search top left (used + 1)

/-- The shortest decimal that reads back as `mantissa · 2 ^ exponent`, for a mantissa that
is not zero. -/
def shortest (mantissa : Nat) (exponent : Int) : Scientific :=
  let i := roundingInterval mantissa exponent
  i.search (leadingPlace i.value i.den) 17 0

end TurtleScript.Decimal
