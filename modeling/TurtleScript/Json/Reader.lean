-- From JSON text to values. One lexeme at a time changes what is being built;
-- the stack holds the arrays and objects that are still open, innermost first.
-- What stands too deep has no value, and neither has an object with a key
-- that has none.
import TurtleScript.Json.Lexeme

namespace TurtleScript.Json

/-- Arrays and objects may be nested this deep. -/
def maxDepth : Nat := 127

/-- Fields of an object, each with its key if that has a value. -/
abbrev Entries := List (Option String × Json)

/-- An open array with its items, or an open object with its fields and the key whose value
comes next. Items and fields come last first. -/
inductive Frame where
  | items (done : List Json)
  | entry (done : Entries) (key : Option String)

/-- What is expected next: a value; the first item of an array or its end; what follows an
item; a key, or at once the end of the object; the colon after a key; what follows a field;
or nothing, because the value is complete. -/
inductive Build where
  | needsValue (stack : List Frame)
  | needsItem (stack : List Frame)
  | afterItem (stack : List Frame) (done : List Json)
  | needsKey (stack : List Frame) (done : Entries) (mayEnd : Bool)
  | needsColon (stack : List Frame) (done : Entries) (key : Option String)
  | afterField (stack : List Frame) (done : Entries)
  | finished (value : Json)

/-- A string with a value, if it has one. -/
def ofString : Option String → Json
  | some s => .str s
  | none => .unreadable

/-- The object of some fields. -/
def ofEntries (entries : Entries) : Json :=
  match entries.mapM fun (key, value) => key.map fun k => (k, value) with
  | some fields => .obj fields
  | none => .unreadable

/-- A value is complete: it goes into the innermost open array or object. -/
def Build.give (value : Json) : List Frame → Build
  | [] => .finished value
  | .items done :: stack => .afterItem stack (value :: done)
  | .entry done key :: stack => .afterField stack ((key, value) :: done)

/-- An array or object is complete. It has a value unless it stands too deep. -/
def Build.close (value : Json) (stack : List Frame) : Build :=
  .give (if stack.length < maxDepth then value else .unreadable) stack

/-- The start of a value. -/
def Build.begin? (stack : List Frame) : Lexeme → Option Build
  | .string s => some (.give (ofString s) stack)
  | .scalar value => some (.give value stack)
  | .arrOpen => some (.needsItem stack)
  | .objOpen => some (.needsKey stack [] true)
  | _ => none

/-- Reads one lexeme; none if it cannot stand here. -/
def Build.take? : Build → Lexeme → Option Build
  | .needsValue stack, lexeme => Build.begin? stack lexeme
  | .needsItem stack, .arrClose => some (.close (.arr []) stack)
  | .needsItem stack, lexeme => Build.begin? (.items [] :: stack) lexeme
  | .afterItem stack done, .comma => some (.needsValue (.items done :: stack))
  | .afterItem stack done, .arrClose => some (.close (.arr done.reverse) stack)
  | .needsKey stack done _, .string key => some (.needsColon stack done key)
  | .needsKey stack done true, .objClose => some (.close (ofEntries done.reverse) stack)
  | .needsColon stack done key, .colon => some (.needsValue (.entry done key :: stack))
  | .afterField stack done, .comma => some (.needsKey stack done false)
  | .afterField stack done, .objClose => some (.close (ofEntries done.reverse) stack)
  | _, _ => none

/-- The value of a row of lexemes. -/
def ofLexemes? (lexemes : List Lexeme) : Option Json :=
  match lexemes.foldlM Build.take? (.needsValue []) with
  | some (.finished value) => some value
  | _ => none

/-- The value of JSON text. Nothing but white space may stand around it. Parts of it may be
unreadable. -/
def parse? (s : String) : Option Json := (lexemes? s.toList).bind ofLexemes?

end TurtleScript.Json
