-- Percent coding in paths: `%` and two hexadecimal digits stand for a byte.
-- A `%` that is followed by anything else stands for itself.

namespace TurtleScript.Web

def hexValue? (b : UInt8) : Option UInt8 :=
  if 48 ≤ b ∧ b ≤ 57 then some (b - 48)
  else if 65 ≤ b ∧ b ≤ 70 then some (b - 55)
  else if 97 ≤ b ∧ b ≤ 102 then some (b - 87)
  else none

/-- The byte that two hexadecimal digits stand for. -/
def hexByte? (high low : UInt8) : Option UInt8 := do
  return 16 * (← hexValue? high) + (← hexValue? low)

/-- The bytes that a path stands for. -/
def percentBytes : List UInt8 → List UInt8
  | 37 :: high :: low :: rest =>
    match hexByte? high low with
    | some b => b :: percentBytes rest
    | none => 37 :: percentBytes (high :: low :: rest)
  | b :: rest => b :: percentBytes rest
  | [] => []

/-- The text that a path stands for, if its bytes are one. -/
def percentDecoded? (path : String) : Option String :=
  String.fromUTF8? ⟨(percentBytes path.toUTF8.toList).toArray⟩

end TurtleScript.Web
