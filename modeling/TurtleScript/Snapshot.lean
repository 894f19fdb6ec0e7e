-- What is kept of a script between two runs: its name and its tokens. All
-- else is rebuilt by taking the tokens again.
import TurtleScript.Parser

namespace TurtleScript

/-- The name and the tokens of a script. -/
structure Snapshot where
  name : String
  tokens : List TaggedToken
  deriving DecidableEq, Repr

/-- What is kept of a script. -/
def Script.snapshot (s : Script) : Snapshot := ⟨s.name, s.tokens.toList⟩

/-- The script with these tokens. Their tags are found anew. -/
def Snapshot.restore (s : Snapshot) : Script :=
  { Script.empty.replay (s.tokens.map (·.toToken)) with name := s.name }

end TurtleScript
