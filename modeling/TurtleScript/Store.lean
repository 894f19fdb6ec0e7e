-- The state of an application: the timeline of its script, and what the user
-- interface shows about sharing and watching.
import TurtleScript.Parser
import TurtleScript.Timeline

namespace TurtleScript

/-! ## The script -/

/-- What an action does to a script. -/
def Script.apply (s : Script) : Action → Script
  | .submit text => s.submit text
  | .rename name => { s with name := name }
  | .reset => .empty
  | _ => s

/-! ## Sharing and watching as shown -/

/-- Whether the script is shared and by which link, and whether another one is watched. -/
structure Environment where
  isSharing : Bool
  sharingUrl : Option String
  isWatching : Bool
  deriving DecidableEq, Repr

/-- Neither shared nor watching. -/
def Environment.idle : Environment := ⟨false, none, false⟩

/-- What an action changes about it. -/
def Environment.apply (e : Environment) : Action → Environment
  | .startedSharing url => { e with isSharing := true, sharingUrl := some url }
  | .stoppedSharing => { e with isSharing := false, sharingUrl := none }
  | .startedWatching => { e with isWatching := true }
  | .stoppedWatching => { e with isWatching := false }
  | _ => e

/-! ## The store -/

/-- The script with its past and future, and what is shown about sharing. -/
structure Store where
  script : Timeline Script
  environment : Environment

namespace Store

/-- A store whose present is a given script. -/
def withScript (s : Script) : Store := ⟨.start s, .idle⟩

def empty : Store := withScript .empty

def present (s : Store) : Script := s.script.present

/-- What an action does. -/
def dispatch (s : Store) (action : Action) : Store :=
  { script := s.script.reduce Script.nextId Script.apply action
    environment := s.environment.apply action }

/-- The present script stays as it is, because the action does not concern it. -/
def isUntouchedBy (s : Store) : Action → Bool
  | .submit _ | .rename _ | .reset => false
  | .undo => !s.script.canUndo
  | .redo => !s.script.canRedo
  | _ => true

/-- Stores with equal values. -/
def same (a b : Store) : Bool :=
  Script.sameList Script.same a.script.past b.script.past &&
    a.script.present.same b.script.present &&
    Script.sameList Script.same a.script.future b.script.future &&
    decide (a.environment = b.environment)

end Store

end TurtleScript
