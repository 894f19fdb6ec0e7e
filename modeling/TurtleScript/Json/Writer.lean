-- From values to JSON text, on one line or indented by two spaces. Doubles are
-- written with the fewest digits that read back.
import TurtleScript.Decimal.Shortest
import TurtleScript.Json.Value

namespace TurtleScript.Json

/-! ## Strings -/

/-- The hexadecimal digit of a number below sixteen. -/
def hexChar (n : Nat) : Char := if n < 10 then Char.ofNat (48 + n) else Char.ofNat (87 + n)

/-- A character inside a string. Quotes, backslashes and control characters are escaped. -/
def escapeChar (c : Char) : List Char :=
  if c = '"' then ['\\', '"']
  else if c = '\\' then ['\\', '\\']
  else if c = '\x08' then ['\\', 'b']
  else if c = '\x0c' then ['\\', 'f']
  else if c = '\n' then ['\\', 'n']
  else if c = '\r' then ['\\', 'r']
  else if c = '\t' then ['\\', 't']
  else if c.toNat < 0x20 then ['\\', 'u', '0', '0', hexChar (c.toNat / 16), hexChar (c.toNat % 16)]
  else [c]

/-- A string with its quotes. -/
def quoted (s : String) : List Char := '"' :: (s.toList.flatMap escapeChar ++ ['"'])

/-! ## Numbers -/

/-- The first and last place of a leading digit for which a number has no power of ten. -/
def positional : Int × Int := (-5, 15)

/-- Shortest digits as a number. One digit at least stands on either side of a point; a
power of ten carries its sign. -/
def floatLayout (s : Decimal.Scientific) : List Char :=
  if s.place < positional.1 ∨ positional.2 < s.place then
    let sign := if s.place < 0 then '-' else '+'
    let mantissa := match s.digits with
      | d :: e :: ds => d :: '.' :: e :: ds
      | ds => ds
    mantissa ++ 'e' :: sign :: Decimal.digits s.place.natAbs
  else if s.place < 0 then
    '0' :: '.' :: (List.replicate (s.place.natAbs - 1) '0' ++ s.digits)
  else
    let before := s.place.natAbs + 1
    let padded := s.digits ++ List.replicate (before - s.digits.length) '0'
    let fraction := padded.drop before
    padded.take before ++ '.' :: (if fraction = [] then ['0'] else fraction)

/-- A double. What is no finite number is written as `null`. -/
def floatDigits (x : Float) : List Char :=
  match Binary.ofFloat x with
  | .finite negative mantissa exponent =>
    let size :=
      if mantissa = 0 then ['0', '.', '0'] else floatLayout (Decimal.shortest mantissa exponent)
    if negative then '-' :: size else size
  | _ => ['n', 'u', 'l', 'l']

/-- A value that holds no others; arrays and objects are left to the writers. What could not be
read is written as `null`. -/
def scalarChars : Json → List Char
  | .null | .unreadable => ['n', 'u', 'l', 'l']
  | .bool true => ['t', 'r', 'u', 'e']
  | .bool false => ['f', 'a', 'l', 's', 'e']
  | .int n => Decimal.intDigits n
  | .float x => floatDigits x
  | .str s => quoted s
  | .arr _ | .obj _ => []

/-! ## On one line -/

mutual
/-- A value on one line, without white space. -/
def compactChars : Json → List Char
  | .arr [] => ['[', ']']
  | .arr (item :: items) => '[' :: (compactChars item ++ compactItems items ++ [']'])
  | .obj [] => ['\x7b', '\x7d']
  | .obj ((key, value) :: fields) =>
    '\x7b' :: (quoted key ++ ':' :: (compactChars value ++ compactFields fields ++ ['\x7d']))
  | .null => scalarChars .null
  | .bool b => scalarChars (.bool b)
  | .int n => scalarChars (.int n)
  | .float x => scalarChars (.float x)
  | .str s => scalarChars (.str s)
  | .unreadable => scalarChars .unreadable

/-- Further items, each after a comma. -/
def compactItems : List Json → List Char
  | [] => []
  | item :: items => ',' :: (compactChars item ++ compactItems items)

/-- Further fields, each after a comma. -/
def compactFields : List (String × Json) → List Char
  | [] => []
  | (key, value) :: fields =>
    ',' :: (quoted key ++ ':' :: (compactChars value ++ compactFields fields))
end

/-- A value on one line, without white space. -/
def compact (j : Json) : String := String.ofList (compactChars j)

/-! ## Indented -/

/-- A line break and the white space at the front of the next line. -/
def newLine (depth : Nat) : List Char := '\n' :: List.replicate (2 * depth) ' '

mutual
/-- A value whose items and fields stand on lines of their own, two spaces further in. -/
def prettyChars (depth : Nat) : Json → List Char
  | .arr [] => ['[', ']']
  | .arr (item :: items) =>
    '[' :: (newLine (depth + 1) ++ prettyChars (depth + 1) item ++ prettyItems (depth + 1) items ++
      newLine depth ++ [']'])
  | .obj [] => ['\x7b', '\x7d']
  | .obj ((key, value) :: fields) =>
    '\x7b' :: (newLine (depth + 1) ++ quoted key ++ ':' :: ' ' :: (prettyChars (depth + 1) value ++
      prettyFields (depth + 1) fields ++ newLine depth ++ ['\x7d']))
  | .null => scalarChars .null
  | .bool b => scalarChars (.bool b)
  | .int n => scalarChars (.int n)
  | .float x => scalarChars (.float x)
  | .str s => scalarChars (.str s)
  | .unreadable => scalarChars .unreadable

/-- Further items, each after a comma on a new line. -/
def prettyItems (depth : Nat) : List Json → List Char
  | [] => []
  | item :: items => ',' :: (newLine depth ++ prettyChars depth item ++ prettyItems depth items)

/-- Further fields, each after a comma on a new line. -/
def prettyFields (depth : Nat) : List (String × Json) → List Char
  | [] => []
  | (key, value) :: fields =>
    ',' :: (newLine depth ++ quoted key ++ ':' :: ' ' :: (prettyChars depth value ++
      prettyFields depth fields))
end

/-- A value with its items and fields on lines of their own. -/
def pretty (j : Json) : String := String.ofList (prettyChars 0 j)

end TurtleScript.Json
