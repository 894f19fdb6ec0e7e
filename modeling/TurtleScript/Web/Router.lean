-- The web side of the relay: its sessions, the demos and a script run, each
-- under a path of its own. All other paths are left to the files of a web
-- client, if there are any.
import TurtleScript.Demo
import TurtleScript.Run
import TurtleScript.Sharing.Relay
import TurtleScript.Web.Static

namespace TurtleScript.Web

/-! ## Pages -/

/-- What there is on the web side. -/
inductive Page where
  | sessions
  | session (segment : String)
  | demos
  | share
  | run
  deriving DecidableEq, Repr

/-- The page of a path. -/
def Page.ofPath? (path : String) : Option Page :=
  match path with
  | "/sessions" => some .sessions
  | "/demos" => some .demos
  | "/share" => some .share
  | "/run" => some .run
  | _ =>
    match splitAll '/' path.toList with
    | [[], kind, segment] =>
      if kind = "sessions".toList ∧ segment ≠ [] then some (.session (String.ofList segment))
      else none
    | _ => none

/-- The methods that a page knows. -/
def Page.allow : Page → String
  | run => "POST"
  | _ => "GET,HEAD"

/-! ## Answers -/

/-- What is told about a session, as JSON. -/
def infoJson (i : SessionInfo) : Json :=
  .obj [("id", .str i.id), ("actions", .int i.actions), ("watchers", .int i.watchers)]

def sessionsAnswer (relay : Relay) : Response := .json (.arr (relay.infos.map infoJson))

def sessionAnswer (relay : Relay) (id : String) : Response :=
  match relay.info? id with
  | some i => .json (infoJson i)
  | none => .fault 404 ("no session with id " ++ id)

def demoJson (d : Demo) : Json :=
  .obj [("code", .str d.code), ("group", .str d.group.title), ("name", .str d.name),
    ("summary", .str d.summary)]

def demosAnswer : Response := .json (.arr (Demo.all.map demoJson))

/-- The drawing of a script as JSON, and whether the script ends in an unfinished
statement. -/
def drawingJson (s : Script) : Json :=
  (Json.obj [("drawCommands", s.drawing.logJson), ("turtle", s.drawing.turtle.toJson),
    ("incomplete", .bool s.isIncomplete)]).sorted

def runAnswer (code : String) : Response :=
  match runLines code with
  | .ok s => .json (drawingJson s)
  | .error f => .fault 422 f.message

/-- The longest script that is taken, in bytes. -/
def maxScript : Nat := 2097152

/-- Runs a script that was sent, unless it is too long. -/
def sentAnswer (code : String) : Response :=
  if maxScript < code.utf8ByteSize then
    .fault 413 "Failed to buffer the request body: length limit exceeded"
  else runAnswer code

/-- The answer to one who calls the relay without the handshake of a web socket. -/
def shareAnswer (r : Request) : Response :=
  let value (name : String) := ((r.header? name).getD "").toLower
  if r.method = "HEAD" then .fault 405 "Request method must be `GET`"
  else if ((value "connection").splitOn "upgrade").length < 2 then
    .fault 400 "Connection header did not include 'upgrade'"
  else if value "upgrade" ≠ "websocket" then
    .fault 400 "`Upgrade` header did not include 'websocket'"
  else if (r.header? "sec-websocket-key").isNone then
    .fault 400 "`Sec-WebSocket-Key` header missing"
  else if value "sec-websocket-version" ≠ "13" then
    .fault 400 "`Sec-WebSocket-Version` header did not include '13'"
  else
    .fault 426 "WebSocket request couldn't be upgraded since no upgrade state was present"

def Page.answer (relay : Relay) (r : Request) : Page → Response
  | sessions => sessionsAnswer relay
  | session segment =>
    match percentDecoded? segment with
    | some id => sessionAnswer relay id
    | none => .fault 400 "Invalid URL: Invalid UTF-8 in `id`"
  | demos => demosAnswer
  | share => shareAnswer r
  | run => sentAnswer r.body

/-! ## Finding the page -/

def answer (relay : Relay) (site : Option Site) (r : Request) : Response :=
  match Page.ofPath? r.path, r.method with
  | some page, "OPTIONS" => .preflight page.allow
  | none, "OPTIONS" => .preflight none
  | some .run, "POST" => sentAnswer r.body
  | some .run, _ => .notAllowed Page.run.allow
  | some page, "GET" => page.answer relay r
  | some page, "HEAD" => (page.answer relay r).withoutBody
  | some page, _ => .notAllowed page.allow
  | none, _ =>
    match site with
    | some site => site.answer r
    | none => .bare 404

end TurtleScript.Web
