-- What clients say to a relay, and its only answer. The relay passes actions
-- on without knowing what they mean, so it reads them as any JSON.
import TurtleScript.Format.Action
import TurtleScript.Json.Reader
import TurtleScript.Json.Writer

namespace TurtleScript

/-! ## Messages -/

/-- A message to a relay: start a session, join one, or pass an action on. -/
inductive Message (α : Type) where
  | startSharing
  | startWatching (id : String)
  | newAction (inner : α)
  deriving DecidableEq, Repr

namespace Message

variable {α : Type}

/-- The types of messages in order. -/
def tags : List String := ["START_SHARING", "START_WATCHING", "NEW_ACTION"]

def toJson (write : α → Json) : Message α → Json
  | startSharing => .obj [("type", .str "START_SHARING")]
  | startWatching id => .obj [("type", .str "START_WATCHING"), ("id", .str id)]
  | newAction inner => .obj [("type", .str "NEW_ACTION"), ("innerAction", write inner)]

def ofJson? (read? : Json → Option α) (j : Json) : Option (Message α) := do
  let (tag, rest) ← Json.tagged? "type" tags false (← j.whole?)
  match tag with
  | "START_SHARING" => if Json.isBare rest then some .startSharing else none
  | "START_WATCHING" => (readText? "id" rest).map .startWatching
  | "NEW_ACTION" => do
    let r ← Json.record? ["innerAction"] rest
    (r.field? "innerAction" read?).map .newAction
  | _ => none

def text (m : Message Action) : String := (m.toJson Action.toJson).compact

def ofText? (s : String) : Option (Message Action) :=
  (Json.parse? s).bind (ofJson? (Action.ofJson? true))

/-- A message as the relay reads it: the action is any JSON with its keys in order. -/
def relayed? (s : String) : Option (Message Json) :=
  (Json.parse? s).bind (ofJson? fun j => some j.sorted)

end Message

/-- An action as watchers receive it. -/
def Action.ofText? (s : String) : Option Action := (Json.parse? s).bind (Action.ofJson? false)

/-! ## The answer to a presenter -/

/-- The answer that tells a presenter the id of its session. -/
def assignedJson (id : String) : Json := .obj [("id", .str id)]

/-- The id in an answer. -/
def readAssigned? (j : Json) : Option String := readText? "id" j

/-- The text of the answer. -/
def assignedText (id : String) : String := (assignedJson id).compact

/-- The id in the text of an answer. -/
def assignedId? (s : String) : Option String := (Json.parse? s).bind readAssigned?

end TurtleScript
