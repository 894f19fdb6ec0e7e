-- Actions and the messages of a sharing session as JSON, tagged by their
-- type.
import TurtleScript.Action
import TurtleScript.Json.Record

namespace TurtleScript

/-! ## Tags -/

def Action.tag : Action → String
  | submit _ => "SUBMIT_EDIT_LINE"
  | rename _ => "SUBMIT_SCRIPT_NAME"
  | undo => "UNDO"
  | redo => "REDO"
  | reset => "RESET"
  | startSharing _ => "START_SHARING"
  | stopSharing => "STOP_SHARING"
  | startedSharing _ => "STARTED_SHARING"
  | stoppedSharing => "STOPPED_SHARING"
  | tryStartWatching _ => "TRY_START_WATCHING"
  | stopWatching => "STOP_WATCHING"
  | startedWatching => "STARTED_WATCHING"
  | stoppedWatching => "STOPPED_WATCHING"
  | share _ => "SHARE_NEW_ACTION"

/-- The types of actions in order. -/
def Action.tags : List String :=
  ["SUBMIT_EDIT_LINE", "SUBMIT_SCRIPT_NAME", "UNDO", "REDO", "RESET", "START_SHARING",
    "STOP_SHARING", "STARTED_SHARING", "STOPPED_SHARING", "TRY_START_WATCHING", "STOP_WATCHING",
    "STARTED_WATCHING", "STOPPED_WATCHING", "SHARE_NEW_ACTION"]

/-! ## Actions -/

/-- What an action says besides its type. -/
def Action.extraFields : Action → List (String × Json)
  | .submit text => [("text", .str text)]
  | .rename name => [("text", .str name)]
  | .startSharing fresh => [("reset", .bool fresh)]
  | .startedSharing url => [("url", .str url)]
  | .tryStartWatching url => [("url", .str url)]
  | .share inner => [("innerAction", .obj (("type", .str inner.tag) :: inner.extraFields))]
  | _ => []

def Action.toJson (a : Action) : Json := .obj (("type", .str a.tag) :: a.extraFields)

/-- The only field of a record, as a text. -/
def readText? (name : String) (j : Json) : Option String :=
  (Json.record? [name] j).bind fun r => r.field? name Json.text?

/-- The choice to start with an empty script; not if nothing is said. -/
def readReset? (j : Json) : Option Bool :=
  match j with
  | .arr [] => some false
  | _ => (Json.record? ["reset"] j).bind fun r =>
    match r.get? "reset" with
    | none => some false
    | some value => value.bool?

/-- An action from JSON that is nested less than `fuel` deep. -/
def readAction? : Nat → Bool → Json → Option Action
  | 0, _, _ => none
  | fuel + 1, inner, j => do
    let (tag, rest) ← Json.tagged? "type" Action.tags inner j
    let bare (action : Action) : Option Action := if Json.isBare rest then some action else none
    match tag with
    | "SUBMIT_EDIT_LINE" => (readText? "text" rest).map .submit
    | "SUBMIT_SCRIPT_NAME" => (readText? "text" rest).map .rename
    | "UNDO" => bare .undo
    | "REDO" => bare .redo
    | "RESET" => bare .reset
    | "START_SHARING" => (readReset? rest).map .startSharing
    | "STOP_SHARING" => bare .stopSharing
    | "STARTED_SHARING" => (readText? "url" rest).map .startedSharing
    | "STOPPED_SHARING" => bare .stoppedSharing
    | "TRY_START_WATCHING" => (readText? "url" rest).map .tryStartWatching
    | "STOP_WATCHING" => bare .stopWatching
    | "STARTED_WATCHING" => bare .startedWatching
    | "STOPPED_WATCHING" => bare .stoppedWatching
    | "SHARE_NEW_ACTION" => do
      let r ← Json.record? ["innerAction"] rest
      (r.field? "innerAction" (readAction? fuel true)).map .share
    | _ => none

/-- An action from JSON; `inner` if it stands inside another record. -/
def Action.ofJson? (inner : Bool) (j : Json) : Option Action :=
  j.whole?.bind fun j => readAction? (j.depth + 1) inner j

end TurtleScript
