-- Decimals with a fixed number of places: the exact value of a double,
-- rounded once, a half to the even neighbour. This is how positions and
-- directions are shown.
import TurtleScript.Decimal.Binary
import TurtleScript.Decimal.Digits

namespace TurtleScript.Decimal

/-- `num / den` rounded to a whole number, a half to the even neighbour. -/
def roundHalfEven (num den : Nat) : Nat :=
  let down := num / den
  let past := 2 * (num % den)
  if past < den then down
  else if den < past then down + 1
  else if down % 2 = 0 then down else down + 1

/-- The digits of `n` thousandths, or whatever the number of places says. -/
def pointed (places n : Nat) : List Char :=
  let ds := digits n
  let padded := List.replicate (places + 1 - ds.length) '0' ++ ds
  padded.take (padded.length - places) ++ '.' :: padded.drop (padded.length - places)

/-- The digits of a value with a fixed number of places. A negative value keeps its sign,
also when it rounds to zero. -/
def fixedDigits (places : Nat) : Binary → List Char
  | .finite negative mantissa exponent =>
    let (num, den) := Binary.fraction mantissa exponent
    let shown := pointed places (roundHalfEven (num * Nat.pow 10 places) den)
    if negative then '-' :: shown else shown
  | .infinite negative => if negative then "-inf".toList else "inf".toList
  | .nan => "NaN".toList

/-- A double with a fixed number of places. -/
def fixed (places : Nat) (x : Float) : String :=
  String.ofList (fixedDigits places (Binary.ofFloat x))

end TurtleScript.Decimal
