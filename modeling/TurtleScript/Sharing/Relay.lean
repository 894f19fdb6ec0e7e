-- The relay: it hands the actions of presenters on to their watchers. Every
-- line to it has an attendant; the first message on a line decides whether
-- its caller presents or watches. A session keeps all its actions, so those
-- who join late get them too.
import TurtleScript.Sharing.Link
import TurtleScript.Sharing.Message

namespace TurtleScript

/-! ## Ids -/

/-- The ids that a relay will give out, one after the other. None comes twice. -/
structure SessionIds where
  nth : Nat → String
  distinct : ∀ m n, nth m = nth n → m = n

namespace SessionIds

instance : Membership String SessionIds where
  mem ids id := ∃ n, ids.nth n = id

def first (ids : SessionIds) : String := ids.nth 0

/-- The ids that are left after the first. -/
def rest (ids : SessionIds) : SessionIds :=
  ⟨fun n => ids.nth (n + 1), fun _ _ h => Nat.succ.inj (ids.distinct _ _ h)⟩

theorem first_mem (ids : SessionIds) : ids.first ∈ ids := ⟨0, rfl⟩

theorem mem_of_mem_rest {ids : SessionIds} {id : String} (h : id ∈ ids.rest) : id ∈ ids := by
  obtain ⟨n, hn⟩ := h
  exact ⟨n + 1, hn⟩

theorem first_notMem_rest (ids : SessionIds) : ids.first ∉ ids.rest := by
  rintro ⟨n, hn⟩
  exact absurd (ids.distinct _ _ hn) (Nat.succ_ne_zero n)

/-- Ids that count, each of them hexadecimal digits in five groups. -/
def counted : SessionIds where
  nth n := "00000000-0000-4000-8000-" ++ String.ofList ((Decimal.digits n).leftpad 12 '0')
  distinct m n h := by
    rw [String.append_right_inj, String.ofList_inj] at h
    rw [← Decimal.readDigits_leftpad_digits 12 m, h, Decimal.readDigits_leftpad_digits]

end SessionIds

/-! ## Lines and sessions -/

/-- Who attends to the far end of a line: the relay before the first message, for a presenter
of a session, or for a watcher; nobody any more; or somebody who answers a caller's calls in
place of the relay. -/
inductive Attendant where
  | greeting
  | presenting (id : String)
  | watching
  | gone
  | outsider (caller : Nat)
  deriving DecidableEq, Repr

/-- A link and who attends to its far end. -/
structure Line where
  link : Link
  attendant : Attendant
  deriving DecidableEq, Repr

/-- What was presented so far, and the lines of those who watch. -/
structure Session where
  log : List String
  watchers : List Nat
  deriving DecidableEq, Repr

/-- All lines by number, the sessions by id with the latest last, and the ids for those that are
still to come. -/
structure Relay where
  lines : List Line
  sessions : List (String × Session)
  ids : SessionIds

/-- What is told about a session. Watchers that have gone are not counted. -/
structure SessionInfo where
  id : String
  actions : Nat
  watchers : Nat
  deriving DecidableEq, Repr

namespace Relay

/-- The relay before any call. -/
def fresh (ids : SessionIds) : Relay := ⟨[], [], ids⟩

/-! ## Lines -/

/-- A new line; its number is the number of lines before it. -/
def connect (r : Relay) (attendant : Attendant) : Relay :=
  { r with lines := r.lines ++ [⟨.fresh, attendant⟩] }

/-- The link of a line. -/
def link? (r : Relay) (n : Nat) : Option Link := r.lines[n]?.map (·.link)

def onLink (r : Relay) (n : Nat) (f : Link → Link) : Relay :=
  { r with lines := r.lines.modify n fun line => { line with link := f line.link } }

/-- Changes who attends to a line. -/
def assign (r : Relay) (n : Nat) (attendant : Attendant) : Relay :=
  { r with lines := r.lines.modify n fun line => { line with attendant } }

def leave (r : Relay) (n : Nat) : Relay := (r.onLink n (·.leave .far)).assign n .gone

/-- The caller of a line can still be reached. -/
def reaches (r : Relay) (n : Nat) : Bool := (r.link? n).any (·.down.takesMore)

/-! ## Sessions -/

def session? (r : Relay) (id : String) : Option Session :=
  (r.sessions.find? (·.1 = id)).map (·.2)

def onSession (r : Relay) (id : String) (f : Session → Session) : Relay :=
  { r with sessions := r.sessions.map fun (i, s) => (i, if i = id then f s else s) }

/-- Starts a session for the caller of a line and tells its id. Nothing more is ever sent to
a presenter. -/
def openSession (r : Relay) (n : Nat) (link : Link) : Relay :=
  let id := r.ids.first
  let r := { r with ids := r.ids.rest }
  match link.send? .far (assignedText id) with
  | none => r.leave n
  | some link =>
    let session : Session := ⟨[], []⟩
    { r with sessions := r.sessions ++ [(id, session)] }.onLink n (fun _ => link.hangUp .far)
      |>.assign n (.presenting id)

/-- Ends a session. Its watchers are told nothing more. -/
def closeSession (r : Relay) (id : String) : Relay :=
  match r.session? id with
  | none => r
  | some s =>
    s.watchers.foldl (fun r n => r.onLink n (·.hangUp .far))
      { r with sessions := r.sessions.filter (·.1 ≠ id) }

/-- Hands an action of a session on to its watchers. Those that have gone are forgotten. -/
def publish (r : Relay) (id action : String) : Relay :=
  match r.session? id with
  | none => r
  | some s =>
    let present := s.watchers.filter r.reaches
    (present.foldl (fun r n => r.onLink n (·.send .far action)) r).onSession id
      fun s => ⟨s.log ++ [action], present⟩

/-- The caller of a line joins a session. It first gets all actions so far. -/
def join (r : Relay) (n : Nat) (link : Link) (id : String) : Relay :=
  match r.session? id with
  | none => r.leave n
  | some s =>
    match s.log.foldlM (fun link action => link.send? .far action) link with
    | none => r.leave n
    | some link =>
      (r.onLink n fun _ => link).assign n .watching |>.onSession id
        fun s => { s with watchers := s.watchers ++ [n] }

/-! ## Attending to lines -/

/-- Deals with a message from the caller of a line. -/
def handle (r : Relay) (n : Nat) (link : Link) (text : String) : Attendant → Relay
  | .greeting =>
    match Message.relayed? text with
    | some .startSharing => r.openSession n link
    | some (.startWatching id) => r.join n link id
    | _ => r.leave n
  | .presenting id =>
    match Message.relayed? text with
    | some (.newAction action) => r.publish id action.compact
    | _ => r
  | .watching | .gone | .outsider _ => r

/-- Deals with the end of all messages from the caller of a line. -/
def finish (r : Relay) (n : Nat) : Attendant → Relay
  | .presenting id => (r.closeSession id).leave n
  | .watching => (r.onLink n (·.abandon .far)).assign n .gone
  | .greeting | .gone | .outsider _ => r.leave n

/-- The attendant of a line deals with what comes next on it; none if there is nothing to
deal with. -/
def attend (r : Relay) (n : Nat) : Option Relay :=
  match r.lines[n]? with
  | none => none
  | some line =>
    match line.attendant with
    | .gone | .outsider _ => none
    | attendant =>
      match line.link.receive .far with
      | .nothing => none
      | .message text link => some ((r.onLink n fun _ => link).handle n link text attendant)
      | .ended => some (r.finish n attendant)

/-! ## What is told about sessions -/

/-- What is told about a session. -/
def infoOf (r : Relay) (id : String) (s : Session) : SessionInfo :=
  ⟨id, s.log.length, (s.watchers.filter r.reaches).length⟩

/-- What is told about all sessions, in the order of their ids. -/
def infos (r : Relay) : List SessionInfo :=
  (r.sessions.map fun (id, s) => r.infoOf id s).mergeSort (·.id ≤ ·.id)

/-- What is told about the session of an id. -/
def info? (r : Relay) (id : String) : Option SessionInfo := r.infos.find? (·.id = id)

end Relay

end TurtleScript
