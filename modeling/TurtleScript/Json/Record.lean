-- Records as JSON: named fields, of which a reader knows some. An object may
-- hold further fields, but none of the known ones twice; an array holds
-- exactly the known ones, in order. A record with a tag says by its tag which
-- fields it has. The tag may stand anywhere, so such a record is read whole
-- first, its unknown fields too.
import TurtleScript.Json.Value

namespace TurtleScript.Json

/-! ## Known fields -/

/-- Fields by name, each at most once. -/
abbrev Record := List (String × Json)

/-- The known fields of an object; none if one of them is there twice. -/
def knownFields? (names : List String) : List (String × Json) → Option Record
  | [] => some []
  | (key, value) :: fields => do
    let rest ← knownFields? names fields
    if names.contains key then
      if rest.any (·.1 = key) then none else some ((key, value) :: rest)
    else some rest

/-- The fields of a record, from an object or an array. -/
def record? (names : List String) : Json → Option Record
  | .obj fields => knownFields? names fields
  | .arr items => if items.length = names.length then some (names.zip items) else none
  | _ => none

/-- The value of a field, if it is there. -/
def Record.get? (r : Record) (name : String) : Option Json :=
  (r.find? (·.1 = name)).map (·.2)

/-- The value of a field that has to be there. -/
def Record.field? {α : Type} (r : Record) (name : String) (read? : Json → Option α) : Option α :=
  (r.get? name).bind read?

/-- The value of a field that may be missing or null. -/
def Record.optional? {α : Type} (r : Record) (name : String) (read? : Json → Option α) :
    Option (Option α) :=
  match r.get? name with
  | none | some .null => some none
  | some value => (read? value).map some

/-- Reads every item of an array. -/
def listOf? {α : Type} (read? : Json → Option α) (j : Json) : Option (List α) :=
  j.items?.bind (·.mapM read?)

/-! ## Tags -/

/-- A tag: one of the names, or inside another tagged record also its number. -/
def tagName? (names : List String) (inner : Bool) : Json → Option String
  | .str s => if names.contains s then some s else none
  | .int (.ofNat n) => if inner then names[n]? else none
  | _ => none

/-- The tag of a record, and the record without it. In an array the tag comes first. -/
def tagged? (tag : String) (names : List String) (inner : Bool) : Json → Option (String × Json)
  | .obj fields =>
    match fields.filter (·.1 = tag) with
    | [(_, value)] =>
      (tagName? names inner value).map fun name => (name, .obj (fields.filter (·.1 ≠ tag)))
    | _ => none
  | .arr (value :: items) => (tagName? names inner value).map fun name => (name, .arr items)
  | _ => none

/-- A record without fields of its own: any object, or an empty array. -/
def isBare : Json → Bool
  | .obj _ => true
  | .arr items => items.isEmpty
  | _ => false

end TurtleScript.Json
