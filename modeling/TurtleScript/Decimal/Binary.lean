-- The exact value of a double: a sign, a whole number and a power of two.
-- Whole parts are taken from it, so counting and printing need no rounding.

namespace TurtleScript

/-- What a double stands for: `± mantissa · 2 ^ exponent`, an infinity, or no number. -/
inductive Binary where
  | finite (negative : Bool) (mantissa : Nat) (exponent : Int)
  | infinite (negative : Bool)
  | nan
  deriving DecidableEq, Repr

namespace Binary

/-- The bit in front of the stored part of a mantissa. -/
def leadingBit : Nat := Nat.pow 2 52

def signBit : Nat := Nat.pow 2 63

/-- The value with these sixty-four bits. -/
def ofBits (bits : Nat) : Binary :=
  let negative := decide (signBit ≤ bits)
  let power : Nat := bits / leadingBit % 2048
  let low : Nat := bits % leadingBit
  if power = 2047 then
    if low = 0 then .infinite negative else .nan
  else if power = 0 then .finite negative low (-1074)
  else .finite negative (leadingBit + low) ((power : Int) - 1075)

def ofFloat (x : Float) : Binary := ofBits x.toBits.toNat

/-- `mantissa · 2 ^ exponent` as a quotient of whole numbers. -/
def fraction (mantissa : Nat) : Int → Nat × Nat
  | .ofNat e => (mantissa * Nat.pow 2 e, 1)
  | .negSucc e => (mantissa, Nat.pow 2 (e + 1))

/-- The part of `mantissa · 2 ^ exponent` before the point. -/
def wholePart (mantissa : Nat) (exponent : Int) : Nat :=
  (fraction mantissa exponent).1 / (fraction mantissa exponent).2

/-- Nothing stands after the point. -/
def IsWhole : Binary → Prop
  | .finite _ mantissa exponent => (fraction mantissa exponent).2 ∣ (fraction mantissa exponent).1
  | _ => False

instance : DecidablePred IsWhole
  | .finite _ _ _ => inferInstanceAs (Decidable (_ ∣ _))
  | .infinite _ => .isFalse id
  | .nan => .isFalse id

/-- The largest count: counts are held in sixty-three bits. -/
def maxCount : Nat := signBit - 1

/-- How often something is done that is to be done this many times: the part before the
point, never less than zero times and never more than `maxCount` times. -/
def count : Binary → Nat
  | .finite true _ _ => 0
  | .finite false mantissa exponent => min (wholePart mantissa exponent) maxCount
  | .infinite negative => if negative then 0 else maxCount
  | .nan => 0

end Binary

/-- A double without a part after the point. -/
def isWhole (x : Float) : Bool := decide (Binary.ofFloat x).IsWhole

/-- How often something is done `x` times. -/
def countOf (x : Float) : Nat := (Binary.ofFloat x).count

end TurtleScript
