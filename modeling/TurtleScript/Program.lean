-- The whole program: what each order of the command line prints and how it
-- ends, when no relay can be reached. A call that nobody answers ends the
-- session it was made for at once.
import TurtleScript.CommandLine
import TurtleScript.Demo
import TurtleScript.Run
import TurtleScript.Shell.Session

namespace TurtleScript

/-! ## Calls that nobody answers -/

/-- The news that a call was not answered. -/
def Effect.refusal? : Effect → Option Event
  | .present generation => some (.sessionClosed .presenter generation)
  | .watch generation _ => some (.sessionClosed .observer generation)
  | _ => none

/-- The shell learns that none of its calls was answered. -/
def Shell.refused (s : Shell) (effects : List Effect) : Reply :=
  (effects.filterMap Effect.refusal?).foldl (fun r event => r.andThen (·.process event)) (s.say [])

/-! ## Scripts and demos -/

/-- What a run prints, or why it fails. -/
def runOutput (code : String) (asJson : Bool) : Except String String :=
  match run code with
  | .ok s => .ok (s.printed asJson)
  | .error fault => .error fault.message

/-- What the run of a file prints, or why it fails. -/
def runFileOutput (read : Except FileFault String) (asJson : Bool) : Except String String :=
  match read with
  | .ok code => runOutput code asJson
  | .error fault => .error fault.message

/-- What a demo prints, or why it fails. Without a name all demos are listed. -/
def demoOutput (name : Option String) (asJson : Bool) : Except String String :=
  match name with
  | none => .ok Demo.list
  | some name =>
    match Demo.find? name with
    | some d => runOutput d.code asJson
    | none => .error (Demo.unknownMessage name)

/-! ## The shell -/

/-- What the shell prints before the first prompt. -/
def greeting : String := "logo shell v0.1.0\nenter '/help' to view available commands\n"

/-- The shell at its start, with a loaded script if a file was given. -/
def openShell (config : Config) (read : Option (Except FileFault String)) : Except String Shell :=
  match read with
  | none => .ok (.ofClient (.new config .empty))
  | some read =>
    match Shell.loaded read with
    | .ok script => .ok (.ofClient (.new config (.withScript script)))
    | .error fault => .error fault.message

/-- What was printed, and the files. -/
structure Outcome where
  out : String
  err : String
  files : Files
  failure : Option String
  deriving DecidableEq, Repr

namespace Outcome

def start (f : Files) : Outcome := ⟨"", "", f, none⟩

def tell (o : Outcome) (notices : List Notice) : Outcome :=
  { o with out := o.out ++ Notice.outText notices, err := o.err ++ Notice.errText notices }

def print (o : Outcome) (text : String) : Outcome := { o with out := o.out ++ text }

/-- Ends with an output or a failure. -/
def conclude (o : Outcome) : Except String String → Outcome
  | .ok text => o.print text
  | .error message => { o with failure := some message }

end Outcome

/-- The shell meets typed lines up to the one that quits, and leaves. -/
def Shell.converse (s : Shell) (o : Outcome) : List String → Outcome
  | [] => o.tell s.leave.notices
  | line :: lines =>
    let request := Request.ofLine line
    let (reply, files) := s.handleWith o.files request
    let o := { o with files }.tell reply.notices
    if request = .quit then o.tell reply.shell.leave.notices
    else
      let news := reply.shell.refused reply.effects
      news.shell.converse ((o.print reply.shell.prompt).tell news.notices) lines

/-! ## Watching -/

/-- Follows a link, or fails if it is none. What the start does to the own drawing is not
told. -/
def watchReply (config : Config) (url : String) : Except String Reply :=
  let t := (Client.new config .empty).dispatch (.tryStartWatching url)
  if t.client.watching.isNone then .error "not a sharing link"
  else .ok (Shell.refused ⟨t.client, 0⟩ t.effects)

/-! ## Orders -/

/-- Does what was asked for. -/
def Invocation.execute (i : Invocation) (files : Files) (input : String) : Outcome :=
  let o := Outcome.start files
  match i.order with
  | .run file asJson => o.conclude (runFileOutput (files.read file) asJson)
  | .demo name asJson => o.conclude (demoOutput name asJson)
  | .shell load =>
    match openShell i.config (load.map files.read) with
    | .error message => o.conclude (.error message)
    | .ok s => s.converse ((o.print greeting).print s.prompt) (typedLines input)
  | .watch url =>
    match watchReply i.config url with
    | .error message => o.conclude (.error message)
    | .ok reply => o.tell reply.notices

end TurtleScript
