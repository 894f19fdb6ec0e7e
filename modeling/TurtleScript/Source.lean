-- From taken tokens back to text: the source by line, and texts that read as
-- the same tokens when they are submitted one after the other. Joining either
-- gives the source again.
import TurtleScript.Token

namespace TurtleScript

/-! ## Lines -/

/-- A line of source with its number. -/
structure SourceLine where
  number : Nat
  text : String
  deriving DecidableEq, Repr

/-- Puts a token in front of the lines after it. -/
def SourceLine.prepend (t : TaggedToken) : List SourceLine → List SourceLine
  | [] => [⟨t.line, t.text⟩]
  | l :: lines =>
    if l.number = t.line then ⟨t.line, t.text ++ l.text⟩ :: lines
    else ⟨t.line, t.text⟩ :: l :: lines

/-- The source by line. White space that goes on over several lines counts for the line it
starts on. -/
def sourceLines (tokens : List TaggedToken) : List SourceLine :=
  tokens.foldr SourceLine.prepend []

/-! ## Submissions -/

/-- Two tokens that may read differently when nothing stands between them: two words or
numbers, or two runs of white space. -/
def merges (a b : Token) : Bool :=
  !a.isBracket && !b.isBracket && a.isBlank == b.isBlank

/-- Two neighbours that may share a submission: they start on one line and do not merge. -/
def shareSubmission (a b : Token) : Bool := a.line = b.line && !merges a b

/-- Texts that read as the same tokens when they are submitted in order. -/
def submissions : List TaggedToken → List String
  | [] => []
  | [t] => [t.text]
  | t :: u :: tokens =>
    match submissions (u :: tokens) with
    | text :: texts =>
      if shareSubmission t.toToken u.toToken then (t.text ++ text) :: texts
      else t.text :: text :: texts
    | [] => [t.text]

end TurtleScript
