-- JSON values. An object keeps its fields as they were written, repeated
-- keys too: some readers refuse them, and free-form values keep the last.
-- Text may keep the grammar and still have no value here; such a place is
-- marked, because a reader that has no use for it passes it over.

namespace TurtleScript

/-- A JSON value. A number is an integer if it was written as one and fits in sixty-four
bits, with or without a sign; any other number is a double. Unreadable is a number beyond the
doubles, a text with half a code point in it, and what is nested too deep. -/
inductive Json where
  | null
  | bool (b : Bool)
  | int (n : Int)
  | float (x : Float)
  | str (s : String)
  | arr (items : List Json)
  | obj (fields : List (String × Json))
  | unreadable
  deriving Inhabited

namespace Json

/-! ## Parts of a value -/

def text? : Json → Option String
  | .str s => some s
  | _ => none

def bool? : Json → Option Bool
  | .bool b => some b
  | _ => none

/-- A whole number that is not negative. -/
def nat? : Json → Option Nat
  | .int (.ofNat n) => some n
  | _ => none

/-- A number as a double. -/
def float? : Json → Option Float
  | .int n => some (Float.ofInt n)
  | .float x => some x
  | _ => none

def items? : Json → Option (List Json)
  | .arr items => some items
  | _ => none

def fields? : Json → Option (List (String × Json))
  | .obj fields => some fields
  | _ => none

/-- One of a set of names: a string, or an object that gives the name no further data. -/
def name? : Json → Option String
  | .str s => some s
  | .obj [(s, .null)] => some s
  | _ => none

/-- One of a set of names where an empty object too counts as no further data. -/
def lenientName? : Json → Option String
  | .obj [(s, .obj [])] => some s
  | j => j.name?

/-! ## Whole values -/

mutual
/-- Every part of the value can be read. -/
def isReadable : Json → Bool
  | .arr items => areReadable items
  | .obj fields => fieldsReadable fields
  | .unreadable => false
  | _ => true

/-- Every item can be read. -/
def areReadable : List Json → Bool
  | [] => true
  | item :: items => isReadable item && areReadable items

/-- Every field can be read. -/
def fieldsReadable : List (String × Json) → Bool
  | [] => true
  | (_, value) :: fields => isReadable value && fieldsReadable fields
end

/-- The value, if every part of it can be read. -/
def whole? (j : Json) : Option Json := if j.isReadable then some j else none

/-! ## Free-form values -/

/-- Puts a field into fields that are sorted by key. A field of the same key is replaced. -/
def putSorted (key : String) (value : Json) : List (String × Json) → List (String × Json)
  | [] => [(key, value)]
  | (k, v) :: fields =>
    if key = k then (key, value) :: fields
    else if key < k then (key, value) :: (k, v) :: fields
    else (k, v) :: putSorted key value fields

mutual
/-- The value with the keys of every object in order, each once: the last value wins. -/
def sorted : Json → Json
  | .arr items => .arr (sortedItems items)
  | .obj fields => .obj (sortedFields [] fields)
  | .null => .null
  | .bool b => .bool b
  | .int n => .int n
  | .float x => .float x
  | .str s => .str s
  | .unreadable => .unreadable

/-- The values one by one. -/
def sortedItems : List Json → List Json
  | [] => []
  | item :: items => sorted item :: sortedItems items

/-- Puts fields into sorted ones, one by one. -/
def sortedFields (done : List (String × Json)) : List (String × Json) → List (String × Json)
  | [] => done
  | (key, value) :: fields => sortedFields (putSorted key (sorted value) done) fields
end

mutual
/-- How many arrays and objects are open at the deepest place. -/
def depth : Json → Nat
  | .arr items => itemsDepth items + 1
  | .obj fields => fieldsDepth fields + 1
  | _ => 0

/-- The depth of the deepest item. -/
def itemsDepth : List Json → Nat
  | [] => 0
  | item :: items => max (depth item) (itemsDepth items)

/-- The depth of the deepest field. -/
def fieldsDepth : List (String × Json) → Nat
  | [] => 0
  | (_, value) :: fields => max (depth value) (fieldsDepth fields)
end

end Json

end TurtleScript
