-- What the shell says: about the drawing, about sharing, and about requests
-- that cannot be met. Complaints go to another stream than the rest.
import TurtleScript.Command
import TurtleScript.Demo
import TurtleScript.Drawing
import TurtleScript.Files
import TurtleScript.Source

namespace TurtleScript

/-! ## Kinds of notices -/

/-- Why a saved script cannot be loaded. -/
inductive LoadFault where
  | file (fault : FileFault)
  | malformed
  deriving DecidableEq, Repr

def LoadFault.message : LoadFault → String
  | file fault => fault.message
  | malformed => "invalid snapshot: not the text of a saved script"

/-- What the shell says. -/
inductive Notice where
  | sharing (url : String)
  | sharingStopped
  | watching
  | watchingStopped
  | refused (description : String)
  | rewound (size : Nat)
  | drawn (command : DrawCommand)
  | saved (path : String)
  | notSaved (fault : FileFault)
  | notLoaded (fault : LoadFault)
  | position (turtle : Turtle)
  | history (lines : List SourceLine)
  | help
  | readOnly
  | incomplete (typed : String)
  | unknown (name : String)

/-! ## Texts -/

def requestHelp : String :=
  "available commands:\n" ++
  "  /undo          - revert the last statement\n" ++
  "  /redo          - restore a reverted statement\n" ++
  "  /reset         - start over with an empty script\n" ++
  "  /name <name>   - rename the script\n" ++
  "  /save <file>   - save the script\n" ++
  "  /load <file>   - load a saved script\n" ++
  "  /share [reset] - share this script, optionally starting empty\n" ++
  "  /unshare       - stop sharing\n" ++
  "  /watch <link>  - follow a shared script\n" ++
  "  /unwatch       - stop following\n" ++
  "  /pos           - current position\n" ++
  "  /history       - accepted source, by line\n" ++
  "  /help          - this help\n" ++
  "  /quit          - exit shell\n"

/-- How a command of the language is written: its names and its parameters. -/
def Command.usage (c : Command) : String :=
  joinedBy " " (joinedBy "|" c.names :: c.params.map fun p => "<" ++ p.name ++ ">")

def languageHelp : String :=
  "language commands:\n" ++
    joined (Command.all.map fun c => "  " ++ padRight 22 c.usage ++ " - " ++ c.summary ++ "\n")

/-- A text filled up with blanks in front to a width. -/
def padLeft (width : Nat) (s : String) : String :=
  String.ofList (s.toList.leftpad width ' ')

/-- A line of source behind its number. -/
def SourceLine.numbered (l : SourceLine) : String :=
  padLeft 4 (Decimal.text l.number) ++ " | " ++ l.text

namespace Notice

def text : Notice → String
  | sharing url => "sharing at " ++ url ++ "\n"
  | sharingStopped => "sharing stopped\n"
  | watching => "watching\n"
  | watchingStopped => "stopped watching\n"
  | refused description => description ++ "\n"
  | rewound size => "drawing rewound to " ++ Decimal.text size ++ " commands\n"
  | drawn command => command.describe ++ "\n"
  | saved path => "saved to " ++ path ++ "\n"
  | notSaved fault => fault.message ++ "\n"
  | notLoaded fault => fault.message ++ "\n"
  | position turtle => turtle.describe ++ "\n"
  | history lines => joined (lines.map SourceLine.numbered) ++ "\n"
  | help => requestHelp ++ languageHelp
  | readOnly => "read-only while watching, use /unwatch first\n"
  | incomplete typed => "/" ++ typed ++ " needs an argument\n"
  | unknown name => "unknown command /" ++ name ++ "\n"

/-- A notice that something cannot be done. -/
def isComplaint : Notice → Bool
  | refused _ | notSaved _ | notLoaded _ | readOnly | incomplete _ | unknown _ => true
  | _ => false

/-- What is said besides complaints. -/
def outText (notices : List Notice) : String :=
  joined ((notices.filter (!·.isComplaint)).map text)

/-- The complaints. -/
def errText (notices : List Notice) : String := joined ((notices.filter isComplaint).map text)

end Notice

end TurtleScript
