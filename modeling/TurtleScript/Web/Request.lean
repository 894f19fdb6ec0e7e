-- Requests to the web side of the relay. A request that cannot be sent is
-- never made: its method and its headers are well formed, and so is its
-- target.
import TurtleScript.Web.Target

namespace TurtleScript.Web

/-! ## Words of a request -/

/-- A character of a method or of the name of a header. -/
def isTokenChar (c : Char) : Bool := c.isAlphanum || "!#$%&'*+-.^_`|~".toList.contains c

/-- A method, or the name of a header. -/
def isToken (s : String) : Bool := s ≠ "" && s.toList.all isTokenChar

/-- A character of the value of a header. -/
def isHeaderChar (c : Char) : Bool := (0x20 ≤ c.toNat && c.toNat ≠ 0x7F) || c = '\t'

def isHeader (header : String × String) : Bool := isToken header.1 && header.2.toList.all isHeaderChar

/-! ## Requests -/

/-- A request: what to do, where, with which headers, and what it carries. -/
structure Request where
  method : String
  target : Target
  headers : List (String × String)
  body : String
  deriving DecidableEq, Repr

namespace Request

/-- The request of a method and the text of a target, if it can be sent. -/
def make? (method target : String) (headers : List (String × String)) (body : String) :
    Option Request :=
  if isToken method && headers.all isHeader then
    (Target.ofText? target).map fun target => ⟨method, target, headers, body⟩
  else none

def path (r : Request) : String := r.target.path

/-- The value of a header; small and capital letters in names are the same. -/
def header? (r : Request) (name : String) : Option String :=
  (r.headers.find? (·.1.toLower = name)).map (·.2)

end Request

end TurtleScript.Web
