-- Everything that can happen to a client. Actions are plain data, so they can
-- be sent to others and applied there again.

namespace TurtleScript

/-- What a user asks for, and what sharing and watching report back. -/
inductive Action where
  | submit (text : String)
  | rename (name : String)
  | undo
  | redo
  | reset
  | startSharing (fresh : Bool)
  | stopSharing
  | startedSharing (url : String)
  | stoppedSharing
  | tryStartWatching (url : String)
  | stopWatching
  | startedWatching
  | stoppedWatching
  | share (inner : Action)
  deriving DecidableEq, Repr

/-- An action of a presenter that its watchers repeat: one that is about the script. -/
def Action.isReplayed : Action → Bool
  | .submit _ | .rename _ | .undo | .redo | .reset => true
  | _ => false

/-- How many actions are wrapped around the innermost one. -/
def Action.wraps : Action → Nat
  | .share inner => inner.wraps + 1
  | _ => 0

end TurtleScript
