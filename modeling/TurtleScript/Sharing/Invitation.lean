-- Where a client finds its relay, and the links by which others join a shared
-- session.
import TurtleScript.Text.Blank
import TurtleScript.Text.Split

namespace TurtleScript

/-- The endpoint of the relay, and what sharing links start with. -/
structure Config where
  relay : String
  shareBase : String
  deriving DecidableEq, Repr

namespace Config

/-- The relay if none is named. -/
def defaultRelay : String := "ws://127.0.0.1:8000/share"

/-- The start of sharing links if none is named. -/
def defaultShareBase : String := "http://127.0.0.1:8000/index.html"

/-- The configuration if nothing is named. -/
def default : Config := ⟨defaultRelay, defaultShareBase⟩

/-- The link by which others join the session `id`. -/
def shareUrl (c : Config) (id : String) : String := c.shareBase ++ "?watching=" ++ id

end Config

/-! ## Links -/

/-- The key of the session id in a link. -/
def watchingKey : List Char := ['w', 'a', 't', 'c', 'h', 'i', 'n', 'g']

/-- The value of the first pair `watching=value` whose value is not empty. -/
def watchingValue? : List (List Char) → Option (List Char)
  | [] => none
  | pair :: pairs =>
    match splitFirst '=' pair with
    | some (key, value) => if key = watchingKey ∧ value ≠ [] then some value else watchingValue? pairs
    | none => watchingValue? pairs

/-- The part of a text before the first `#`. -/
def beforeFragment (cs : List Char) : List Char :=
  match splitFirst '#' cs with
  | some (before, _) => before
  | none => cs

/-- The session id in a link, without white space around it. A text without a query is an id
itself if it has no slash. -/
def watchingIdChars? (cs : List Char) : Option (List Char) :=
  let cs := trimBlanks cs
  match splitFirst '?' cs with
  | none => if cs = [] ∨ '/' ∈ cs then none else some cs
  | some (_, query) => watchingValue? (splitAll '&' (beforeFragment query))

/-- The session id in a link or a text that is one. -/
def watchingId? (locator : String) : Option String :=
  (watchingIdChars? locator.toList).map String.ofList

end TurtleScript
