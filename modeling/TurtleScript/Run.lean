-- Running a whole script: its lines are submitted one by one, up to the first
-- that is refused. What comes out is the drawing, as text or as JSON.
import TurtleScript.Format.Script
import TurtleScript.Text.Split

namespace TurtleScript

/-! ## Line by line -/

/-- A refused line and why it was refused. -/
structure LineFault where
  line : Nat
  description : String
  deriving DecidableEq, Repr

def LineFault.message (f : LineFault) : String :=
  "line " ++ Decimal.text f.line ++ ": " ++ f.description

/-- Submits lines one by one, up to the first that is refused. It is reported with the line
on which it would have started. -/
def Script.submitLines (s : Script) : List String → Except LineFault Script
  | [] => .ok s
  | line :: lines =>
    let next := s.submit line
    match next.error with
    | some description => .error ⟨s.nextLine, description⟩
    | none => next.submitLines lines

/-- Submits a whole text by its lines. -/
def runLines (code : String) : Except LineFault Script := Script.empty.submitLines (linesOf code)

/-! ## Whole scripts -/

/-- Why a script has no drawing. -/
inductive RunFault where
  | refused (fault : LineFault)
  | unfinished
  deriving DecidableEq, Repr

def RunFault.message : RunFault → String
  | refused fault => fault.message
  | unfinished => "script ends inside an unfinished statement"

/-- Runs a script. All its statements have to be finished at the end. -/
def run (code : String) : Except RunFault Script :=
  match runLines code with
  | .error fault => .error (.refused fault)
  | .ok s => if s.isIncomplete then .error .unfinished else .ok s

/-! ## The outcome -/

/-- The drawing log and the turtle, a line each. -/
def Script.shown (s : Script) : String :=
  joined (s.drawing.log.toList.map fun c => c.describe ++ "\n") ++ s.drawing.turtle.describe ++ "\n"

/-- The name, the drawing log and the turtle as JSON, with the keys in order. -/
def Script.outcomeJson (s : Script) : Json :=
  (Json.obj [("name", .str s.name), ("drawCommands", s.drawing.logJson),
    ("turtle", s.drawing.turtle.toJson)]).sorted

/-- The outcome of a run as it is printed. -/
def Script.printed (s : Script) (asJson : Bool) : String :=
  if asJson then s.outcomeJson.pretty ++ "\n" else s.shown

end TurtleScript
