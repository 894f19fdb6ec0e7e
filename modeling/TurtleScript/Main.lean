-- The program at the command line. It hands arguments, files and typed lines
-- to the library and prints what comes back. This build has no network, so
-- no relay can be reached.
import TurtleScript.Program

namespace TurtleScript

/-! ## Files -/

/-- The fault that an error of the system stands for. -/
def FileFault.ofError : IO.Error → FileFault
  | .noFileOrDirectory .. => .missing
  | error => .other (toString error)

def readText (path : String) : IO (Except FileFault String) := do
  try return .ok (← IO.FS.readFile path) catch error => return .error (.ofError error)

/-- Does an errand of the shell. -/
def runErrand : Errand → IO (Except FileFault String)
  | .read path => readText path
  | .write path text => do
    try
      IO.FS.writeFile path text
      return .ok ""
    catch error => return .error (.ofError error)

/-! ## Printing -/

/-- Prints notices, complaints to their own stream. -/
def tell (notices : List Notice) : IO Unit := do
  IO.print (Notice.outText notices)
  IO.eprint (Notice.errText notices)

def printNow (text : String) : IO Unit := do
  IO.print text
  (← IO.getStdout).flush

/-- Says why the program ends without having done what was asked for. -/
def complain (message : String) : IO UInt32 := do
  IO.eprintln ("Error: " ++ message)
  return 1

/-- Prints an output, or says why there is none. -/
def conclude : Except String String → IO UInt32
  | .ok text => do
    IO.print text
    return 0
  | .error message => complain message

/-! ## The shell -/

/-- Meets typed lines up to the end of the input or the one that quits. -/
partial def converse (input : IO.FS.Stream) (s : Shell) : IO Shell := do
  let line ← input.getLine
  if line = "" then return s
  let request := Request.ofLine (String.ofList (withoutLineEnd line.toList))
  let outcome ← match s.errand? request with
    | none => pure (.ok "")
    | some errand => runErrand errand
  let reply := s.handle outcome request
  tell reply.notices
  if request = .quit then return reply.shell
  printNow reply.shell.prompt
  let news := reply.shell.refused reply.effects
  tell news.notices
  converse input news.shell

/-- Runs the shell up to its end. -/
def runShell (s : Shell) : IO UInt32 := do
  IO.print greeting
  printNow s.prompt
  let s ← converse (← IO.getStdin) s
  tell s.leave.notices
  return 0

/-! ## Orders -/

/-- Does what was asked for. -/
def carryOut (i : Invocation) : IO UInt32 := do
  match i.order with
  | .run file asJson => conclude (runFileOutput (← readText file) asJson)
  | .demo name asJson => conclude (demoOutput name asJson)
  | .shell load =>
    match openShell i.config (← load.mapM readText) with
    | .ok s => runShell s
    | .error message => complain message
  | .watch url =>
    match watchReply i.config url with
    | .ok reply =>
      tell reply.notices
      return 0
    | .error message => complain message

end TurtleScript

def main (args : List String) : IO UInt32 :=
  match TurtleScript.readArguments args with
  | .ok invocation => TurtleScript.carryOut invocation
  | .error fault => do
    if fault.isRequest then
      IO.print fault.text
      return 0
    else
      IO.eprint fault.text
      return 2
