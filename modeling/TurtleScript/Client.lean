-- A client: the store of its user, and at most one session it presents and
-- one it watches. Everything it does to the outside is an effect that it
-- asks for; what happens there comes back as an event. Each session has a
-- generation, so an event of an earlier session is known as such.
import TurtleScript.Sharing.Invitation
import TurtleScript.Sharing.Message
import TurtleScript.Source
import TurtleScript.Store

namespace TurtleScript

/-! ## Sessions of a client -/

/-- A client presents its own script, or watches that of another. -/
inductive Role where
  | presenter
  | observer
  deriving DecidableEq, Repr

/-- Where the messages of a presenter go: they are kept until there is a line, and sent from
then on. -/
inductive Outlet where
  | pending (messages : List (Message Action))
  | open (line : Nat)
  deriving DecidableEq, Repr

/-- A session that the client presents. Its id is known once there is a line. -/
structure Presenting where
  generation : Nat
  id : Option String
  outlet : Outlet
  deriving DecidableEq, Repr

/-- A session that the client watches. -/
structure Watching where
  generation : Nat
  id : String
  deriving DecidableEq, Repr

/-- A client. The generation is that of its latest session. -/
structure Client where
  config : Config
  store : Store
  presenting : Option Presenting
  watching : Option Watching
  -- A program counts in 64 bits here. No run is long enough to use them up.
  generation : Nat

/-- What a client has to deal with: an action of its user, or news of one of its sessions. -/
inductive Event where
  | action (action : Action)
  | presenterReady (generation : Nat) (id : String) (line : Nat)
  | observerJoined (generation : Nat)
  | remote (generation : Nat) (action : Action)
  | sessionClosed (role : Role) (generation : Nat)
  deriving DecidableEq, Repr

/-- What a client asks for: to send a message, to send no more, to give a session up, or to
call the relay for a new one. -/
inductive Effect where
  | send (line : Nat) (message : Message Action)
  | hangUp (line : Nat)
  | cancel (generation : Nat)
  | present (generation : Nat)
  | watch (generation : Nat) (id : String)
  deriving DecidableEq, Repr

/-- The outcome of an action or event: the client after it, the actions that went through the
store, and the effects, both in order. -/
structure Turn where
  client : Client
  dispatched : List Action
  effects : List Effect

/-- Goes on after a turn. -/
def Turn.andThen (t : Turn) (next : Client → Turn) : Turn :=
  let u := next t.client
  ⟨u.client, t.dispatched ++ u.dispatched, t.effects ++ u.effects⟩

namespace Client

/-! ## Starting -/

/-- A client without sessions. -/
def new (config : Config) (store : Store) : Client := ⟨config, store, none, none, 0⟩

def present (c : Client) : Script := c.store.present

/-- A turn in which nothing happens. -/
def stay (c : Client) : Turn := ⟨c, [], []⟩

/-- An effect and nothing else. -/
def ask (c : Client) (effects : List Effect) : Turn := ⟨c, [], effects⟩

/-- Puts an action through the store. -/
def record (c : Client) (action : Action) : Turn :=
  ⟨{ c with store := c.store.dispatch action }, [action], []⟩

/-! ## Presenting -/

/-- Passes an action on to those who watch. -/
def relay (c : Client) (inner : Action) : Turn :=
  match c.presenting with
  | none => c.stay
  | some p =>
    match p.outlet with
    | .pending messages =>
      let outlet := Outlet.pending (messages ++ [.newAction inner])
      { c with presenting := some { p with outlet } }.stay
    | .open line => c.ask [.send line (.newAction inner)]

/-- Gives up a session that is presented. -/
def closing (p : Presenting) : List Effect :=
  match p.outlet with
  | .pending _ => [.cancel p.generation]
  | .open line => [.hangUp line, .cancel p.generation]

/-- Gives up the session that is presented, if there is one. -/
def dropPresenting (c : Client) : Turn :=
  match c.presenting with
  | none => c.stay
  | some p => { c with presenting := none }.ask (closing p)

/-- The messages that rebuild a script elsewhere. -/
def rebuilding (s : Script) : List (Message Action) :=
  (submissions s.tokens.toList).map fun text => .newAction (.submit text)

/-- Makes place for a new session and calls the relay. What is known of the script so far is
the first to be sent. -/
def openPresenting (c : Client) (fresh : Bool) : Turn :=
  let generation := c.generation + 1
  let messages := if fresh then [] else rebuilding c.present
  { c with presenting := some ⟨generation, none, .pending messages⟩, generation }.ask
    [.present generation]

/-- Starts to present, with an empty script if a fresh one is wanted. -/
def startSharing (c : Client) (fresh : Bool) : Turn :=
  c.dropPresenting
    |>.andThen (fun c => if fresh then c.record .reset else c.stay)
    |>.andThen (·.openPresenting fresh)

def stopSharing (c : Client) : Turn :=
  match c.presenting with
  | none => c.stay
  | some _ => c.dropPresenting.andThen (·.record .stoppedSharing)

/-! ## Watching -/

/-- Gives up the session that is watched, if there is one. -/
def dropWatching (c : Client) : Turn :=
  match c.watching with
  | none => c.stay
  | some w => { c with watching := none }.ask [.cancel w.generation]

/-- Makes place for a session to watch and calls the relay. -/
def openWatching (c : Client) (id : String) : Turn :=
  let generation := c.generation + 1
  { c with watching := some ⟨generation, id⟩, generation }.ask [.watch generation id]

/-- Starts to watch with an empty script. A link without an id is not followed. -/
def startWatching (c : Client) (url : String) : Turn :=
  match watchingId? url with
  | none => c.stay
  | some id =>
    c.dropWatching
      |>.andThen (·.record .reset)
      |>.andThen (·.openWatching id)

def stopWatching (c : Client) : Turn :=
  match c.watching with
  | none => c.stay
  | some _ => c.dropWatching.andThen (·.record .stoppedWatching)

/-! ## Actions -/

/-- Puts an action through the store and does what else it asks for. -/
def perform (c : Client) (action : Action) : Turn :=
  (c.record action).andThen fun c =>
    match action with
    | .startSharing fresh => c.startSharing fresh
    | .stopSharing => c.stopSharing
    | .share inner => c.relay inner
    | .tryStartWatching url => c.startWatching url
    | .stopWatching => c.stopWatching
    | _ => c.stay

/-- Deals with an action. A line of script is shared before it is submitted. -/
def dispatch (c : Client) (action : Action) : Turn :=
  match action with
  | .submit text => (c.perform (.share (.submit text))).andThen (·.perform (.submit text))
  | action => c.perform action

/-! ## Events -/

/-- The session that is presented has this generation. -/
def isPresenting (c : Client) (generation : Nat) : Bool :=
  c.presenting.any (·.generation = generation)

/-- The session that is watched has this generation. -/
def isWatching (c : Client) (generation : Nat) : Bool :=
  c.watching.any (·.generation = generation)

/-- There is a line now: what was kept is sent, and the link is shown. -/
def establish (c : Client) (p : Presenting) (id : String) (line : Nat) : Turn :=
  let kept := match p.outlet with
    | .pending messages => messages
    | .open _ => []
  { c with presenting := some { p with id := some id, outlet := .open line } }.ask
      (kept.map (.send line))
    |>.andThen (·.record (.startedSharing (c.config.shareUrl id)))

/-- Deals with an event. News of an earlier session is ignored, and its line is given up. -/
def process (c : Client) : Event → Turn
  | .action action => c.dispatch action
  | .presenterReady generation id line =>
    match c.presenting with
    | none => c.ask [.hangUp line]
    | some p =>
      if p.generation = generation then c.establish p id line else c.ask [.hangUp line]
  | .observerJoined generation =>
    if c.isWatching generation then c.record .startedWatching else c.stay
  | .remote generation action =>
    if c.isWatching generation ∧ action.isReplayed then c.dispatch action else c.stay
  | .sessionClosed .presenter generation =>
    if c.isPresenting generation then c.dropPresenting.andThen (·.record .stoppedSharing)
    else c.stay
  | .sessionClosed .observer generation =>
    if c.isWatching generation then c.dropWatching.andThen (·.record .stoppedWatching)
    else c.stay

end Client

end TurtleScript
