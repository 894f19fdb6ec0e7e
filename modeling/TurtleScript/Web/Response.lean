-- Answers of the web side of the relay. What an answer carries is bytes, since
-- a part of a file may end inside a character.
import TurtleScript.Json.Writer

namespace TurtleScript.Web

def textBytes (s : String) : List UInt8 := s.toUTF8.toList

/-- An answer. `allow` lists the methods that a path knows, and a preflight answer tells which
methods other sites may use. -/
structure Response where
  status : Nat
  contentType : Option String
  body : List UInt8
  allow : Option String
  isPreflight : Bool
  deriving DecidableEq, Repr

namespace Response

/-- An answer with nothing in it. -/
def bare (status : Nat) : Response := ⟨status, none, [], none, false⟩

/-- An answer that carries something of some type. -/
def ofType (status : Nat) (type : String) (body : List UInt8) : Response :=
  ⟨status, some type, body, none, false⟩

/-- An answer that says in words what is wrong. -/
def fault (status : Nat) (message : String) : Response :=
  ofType status "text/plain; charset=utf-8" (textBytes message)

def json (j : Json) : Response := ofType 200 "application/json" (textBytes j.compact)

def notAllowed (allow : String) : Response := { bare 405 with allow := some allow }

/-- The answer to the question which methods there are. -/
def preflight (allow : Option String) : Response := { bare 200 with allow, isPreflight := true }

def withoutBody (r : Response) : Response := { r with body := [] }

/-- The headers of an answer. Every site may ask. -/
def headers (r : Response) : List (String × String) :=
  let optional (name : String) (value : Option String) := value.toList.map fun v => (name, v)
  optional "content-type" r.contentType ++ optional "allow" r.allow ++
    [("access-control-allow-origin", "*")] ++
    if r.isPreflight then [("access-control-allow-methods", "GET,POST")] else []

end Response

end TurtleScript.Web
