-- The shell: it turns typed requests into actions of its client and tells
-- what they have done. Of the drawing it tells only what is new: the shell
-- remembers how much of the log has been printed, and says when the drawing
-- has become shorter than that.
import TurtleScript.Client
import TurtleScript.Format.Script
import TurtleScript.Shell.Notice
import TurtleScript.Shell.Request

namespace TurtleScript

/-! ## Shells and replies -/

/-- A client, and how much of its drawing log has been printed. -/
structure Shell where
  client : Client
  printed : Nat

/-- What a shell does in reply to something. -/
structure Reply where
  shell : Shell
  effects : List Effect
  notices : List Notice
  dispatched : List Action

/-- What a shell needs from the file system to meet a request. -/
inductive Errand where
  | read (path : String)
  | write (path text : String)
  deriving DecidableEq, Repr

/-- Does an errand. What is read comes back; what is written changes the files. -/
def Files.run (f : Files) : Errand → Except FileFault String × Files
  | .read path => (f.read path, f)
  | .write path text =>
    match f.write path text with
    | .ok f => (.ok "", f)
    | .error fault => (.error fault, f)

/-- Goes on after a reply. -/
def Reply.andThen (r : Reply) (next : Shell → Reply) : Reply :=
  let s := next r.shell
  ⟨s.shell, r.effects ++ s.effects, r.notices ++ s.notices, r.dispatched ++ s.dispatched⟩

namespace Shell

/-- The shell of a client. What its drawing log has at the start counts as printed. -/
def ofClient (c : Client) : Shell := ⟨c, c.present.drawing.log.size⟩

/-- The prompt shows whether a statement is waiting for more. -/
def prompt (s : Shell) : String := if s.client.present.isIncomplete then ". " else "> "

/-- A reply in words only. -/
def say (s : Shell) (notices : List Notice) : Reply := ⟨s, [], notices, []⟩

/-! ## Telling what was done -/

/-- What is said about an action, with the script after it. -/
def noticesOf (script : Script) : Action → List Notice
  | .startedSharing url => [.sharing url]
  | .stoppedSharing => [.sharingStopped]
  | .startedWatching => [.watching]
  | .stoppedWatching => [.watchingStopped]
  | .submit _ => script.error.toList.map .refused
  | _ => []

/-- What is said about a drawing of which a part has been printed. -/
def drawingNotices (printed : Nat) (log : List DrawCommand) : List Notice :=
  (if log.length < printed then [.rewound log.length] else []) ++ (log.drop printed).map .drawn

/-- Tells what a turn of the client has done. -/
def report (s : Shell) (t : Turn) : Reply :=
  let script := t.client.present
  { shell := ⟨t.client, script.drawing.log.size⟩
    effects := t.effects
    notices := t.dispatched.flatMap (noticesOf script) ++
      drawingNotices s.printed script.drawing.log.toList
    dispatched := t.dispatched }

/-- Deals with an action. -/
def dispatch (s : Shell) (action : Action) : Reply := s.report (s.client.dispatch action)

def process (s : Shell) (event : Event) : Reply := s.report (s.client.process event)

/-- Deals with actions in order. -/
def dispatchAll (s : Shell) (actions : List Action) : Reply :=
  actions.foldl (fun r action => r.andThen (·.dispatch action)) (s.say [])

/-! ## Requests -/

/-- What a request needs from the file system. -/
def errand? (s : Shell) : Request → Option Errand
  | .save path => some (.write path s.client.present.saved)
  | .load path => some (.read path)
  | _ => none

/-- The actions that rebuild a script in place of the present one. -/
def loading (script : Script) : List Action :=
  .reset :: (submissions script.tokens.toList).map .submit ++ [.rename script.name]

/-- The script of a file's text. -/
def loaded (read : Except FileFault String) : Except LoadFault Script :=
  match read with
  | .error fault => .error (.file fault)
  | .ok text =>
    match Script.load? text with
    | some script => .ok script
    | none => .error .malformed

/-- Meets a request, given what came of its errand. -/
def handle (s : Shell) (outcome : Except FileFault String) : Request → Reply
  | .submit line =>
    if s.client.watching.isSome then s.say [.readOnly] else s.dispatch (.submit line)
  | .undo => s.dispatch .undo
  | .redo => s.dispatch .redo
  | .reset => s.dispatch .reset
  | .rename name => s.dispatch (.rename name)
  | .save path =>
    match outcome with
    | .ok _ => s.say [.saved path]
    | .error fault => s.say [.notSaved fault]
  | .load _ =>
    match loaded outcome with
    | .ok script => s.dispatchAll (loading script)
    | .error fault => s.say [.notLoaded fault]
  | .share fresh => s.dispatch (.startSharing fresh)
  | .unshare => s.dispatch .stopSharing
  | .watch link => s.dispatch (.tryStartWatching link)
  | .unwatch => s.dispatch .stopWatching
  | .position => s.say [.position s.client.present.drawing.turtle]
  | .history => s.say [.history (sourceLines s.client.present.tokens.toList)]
  | .help => s.say [.help]
  | .quit => s.say []
  | .incomplete typed => s.say [.incomplete typed]
  | .unknown name => s.say [.unknown name]

/-- Meets a request with the files at hand. -/
def handleWith (s : Shell) (f : Files) (r : Request) : Reply × Files :=
  match s.errand? r with
  | none => (s.handle (.ok "") r, f)
  | some errand => let (outcome, f) := f.run errand; (s.handle outcome r, f)

/-- Leaves: neither shares nor watches any more. -/
def leave (s : Shell) : Reply := s.dispatchAll [.stopSharing, .stopWatching]

end Shell

end TurtleScript
