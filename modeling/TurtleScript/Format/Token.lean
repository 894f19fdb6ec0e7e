-- Tokens as JSON. A plain token is a record; the id of a taken token stands
-- beside its fields and is left out where there is none. The two parts of a
-- taken token share one object, so that is read whole before it is taken
-- apart.
import TurtleScript.Json.Record
import TurtleScript.Token

namespace TurtleScript

/-! ## Kinds -/

def TokenKind.name : TokenKind → String
  | word => "word"
  | number => "number"
  | whitespace => "whitespace"
  | bracketOpen => "bracketOpen"
  | bracketClose => "bracketClose"

def TokenKind.all : List TokenKind := [word, number, whitespace, bracketOpen, bracketClose]

def TokenKind.named? (s : String) : Option TokenKind := all.find? (·.name = s)

/-! ## Tokens -/

def Token.fields (t : Token) : List (String × Json) :=
  [("type", .str t.kind.name), ("text", .str t.text), ("lineNumber", .int t.line)]

def Token.toJson (t : Token) : Json := .obj t.fields

/-- A token out of its fields, with a way to read the name of its kind. -/
def Token.ofRecord? (name? : Json → Option String) (r : Json.Record) : Option Token := do
  let kind ← r.field? "type" fun j => (name? j).bind TokenKind.named?
  let text ← r.field? "text" Json.text?
  let line ← r.field? "lineNumber" Json.nat?
  return ⟨kind, text, line⟩

def Token.ofJson? (j : Json) : Option Token :=
  (Json.record? ["type", "text", "lineNumber"] j).bind (Token.ofRecord? Json.name?)

/-! ## Taken tokens -/

def TaggedToken.toJson (t : TaggedToken) : Json :=
  match t.owner with
  | none => .obj t.fields
  | some id => .obj (t.fields ++ [("instructionId", .int id)])

/-- A taken token from JSON: always an object. -/
def TaggedToken.ofJson? (j : Json) : Option TaggedToken := do
  let fields ← (← j.whole?).fields?
  let r ← Json.knownFields? ["type", "text", "lineNumber", "instructionId"] fields
  let token ← Token.ofRecord? Json.lenientName? r
  let owner ← r.optional? "instructionId" Json.nat?
  return ⟨token, owner⟩

end TurtleScript
