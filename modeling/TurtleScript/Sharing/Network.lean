-- Clients and a relay at work together. Between the two stand tasks: each
-- session of a client has one, which calls the relay and puts what it hears
-- into the client's inbox. Everything happens in small steps, and a step of
-- one part never waits for another, so any order of steps can be studied.
import TurtleScript.Client
import TurtleScript.Sharing.Relay

namespace TurtleScript

/-! ## Parts -/

/-- Where the calls of a client end up: at the relay, nowhere, or with somebody who answers by
hand. -/
inductive Route where
  | relay
  | nowhere
  | byHand
  deriving DecidableEq, Repr

/-- A client with the events that wait for it. -/
structure Station where
  client : Client
  inbox : List Event
  route : Route

/-- How far a task has come: it is about to call, waits for its session's id, listens, or has
nothing more to do. -/
inductive Phase where
  | calling
  | awaiting (line : Nat)
  | listening (line : Nat)
  | finished
  deriving DecidableEq, Repr

/-- What a task is for: to present, or to watch the session of an id. -/
inductive Purpose where
  | present
  | watch (id : String)
  deriving DecidableEq, Repr

/-- The task of a session: whose it is, of which generation, and whether it was given up. -/
structure Task where
  station : Nat
  generation : Nat
  purpose : Purpose
  phase : Phase
  cancelled : Bool
  deriving DecidableEq, Repr

/-- The role of the client in the session of a task. -/
def Task.role (t : Task) : Role :=
  match t.purpose with
  | .present => .presenter
  | .watch _ => .observer

/-- The first message of a task. -/
def Task.greeting (t : Task) : Message Action :=
  match t.purpose with
  | .present => .startSharing
  | .watch id => .startWatching id

/-- The relay, the stations and all tasks. -/
structure Network where
  relay : Relay
  stations : List Station
  tasks : List Task

namespace Network

/-- A network without clients. -/
def fresh (ids : SessionIds) : Network := ⟨.fresh ids, [], []⟩

/-! ## Stations -/

/-- A further client. -/
def join (n : Network) (client : Client) (route : Route) : Network :=
  { n with stations := n.stations ++ [⟨client, [], route⟩] }

def onStation (n : Network) (s : Nat) (f : Station → Station) : Network :=
  { n with stations := n.stations.modify s f }

def onLink (n : Network) (line : Nat) (f : Link → Link) : Network :=
  { n with relay := n.relay.onLink line f }

/-- Puts an event into an inbox. -/
def report (n : Network) (s : Nat) (event : Event) : Network :=
  n.onStation s fun station => { station with inbox := station.inbox ++ [event] }

/-- Does what a client asks for. -/
def carryOut (n : Network) (s : Nat) : Effect → Network
  | .send line message => n.onLink line (·.send .near message.text)
  | .hangUp line => n.onLink line (·.hangUp .near)
  | .cancel generation =>
    { n with tasks := n.tasks.map fun t =>
        if t.station = s ∧ t.generation = generation then { t with cancelled := true } else t }
  | .present generation =>
    { n with tasks := n.tasks ++ [⟨s, generation, .present, .calling, false⟩] }
  | .watch generation id =>
    { n with tasks := n.tasks ++ [⟨s, generation, .watch id, .calling, false⟩] }

/-- Completes a turn of a client. -/
def complete (n : Network) (s : Nat) (t : Turn) : Network :=
  t.effects.foldl (carryOut · s) (n.onStation s fun station => { station with client := t.client })

/-- A client deals with an action. The second part is what it dispatched. -/
def dispatch (n : Network) (s : Nat) (action : Action) : Network × List Action :=
  match n.stations[s]? with
  | none => (n, [])
  | some station =>
    let t := station.client.dispatch action
    (n.complete s t, t.dispatched)

/-- A client deals with the next event of its inbox, if there is one. -/
def process? (n : Network) (s : Nat) : Option (Network × List Action) :=
  match n.stations[s]? with
  | none => none
  | some station =>
    match station.inbox with
    | [] => none
    | event :: inbox =>
      let t := station.client.process event
      some ((n.onStation s fun station => { station with inbox }).complete s t, t.dispatched)

/-! ## Tasks -/

/-- Changes how far a task has come. -/
def advance (n : Network) (t : Nat) (phase : Phase) : Network :=
  { n with tasks := n.tasks.modify t fun task => { task with phase } }

/-- A task tells its client that the session is over. -/
def reportClosed (n : Network) (task : Task) : Network :=
  n.report task.station (.sessionClosed task.role task.generation)

/-- A task calls. A new line gets the next number. -/
def call (n : Network) (t : Nat) (task : Task) (attendant : Attendant) : Network :=
  let line := n.relay.lines.length
  let n := { n with relay := n.relay.connect attendant }.onLink line
    (·.send .near task.greeting.text)
  match task.purpose with
  | .present => n.advance t (.awaiting line)
  | .watch _ => (n.report task.station (.observerJoined task.generation)).advance t (.listening line)

/-- A task calls where the calls of its client end up. -/
def place (n : Network) (t : Nat) (task : Task) : Network :=
  match n.stations[task.station]? with
  | none => n.advance t .finished
  | some station =>
    match station.route with
    | .relay => n.call t task .greeting
    | .byHand => n.call t task (.outsider task.station)
    | .nowhere => (n.reportClosed task).advance t .finished

/-- A task that was given up goes. A presenter's line stays with the client. -/
def giveUp (n : Network) (t : Nat) (task : Task) : Network :=
  let n := match task.phase, task.purpose with
    | .awaiting line, _ | .listening line, .watch _ => n.onLink line (·.leave .near)
    | .listening line, .present => n.onLink line (·.abandon .near)
    | _, _ => n
  n.advance t .finished

/-- A task hears a message. A presenter's first one has the session's id, and there are no
others of interest; an observer hears actions. -/
def hear (n : Network) (t : Nat) (task : Task) (line : Nat) (text : String) : Network :=
  match task.phase, task.purpose with
  | .awaiting _, _ =>
    match assignedId? text with
    | some id =>
      (n.report task.station (.presenterReady task.generation id line)).advance t (.listening line)
    | none => (n.reportClosed task).giveUp t task
  | .listening _, .watch _ =>
    match Action.ofText? text with
    | some action => n.report task.station (.remote task.generation action)
    | none => (n.reportClosed task).giveUp t task
  | _, _ => n

/-- A task listens on its line; none if there is nothing to hear yet. -/
def listen (n : Network) (t : Nat) (task : Task) (line : Nat) : Option Network :=
  match n.relay.link? line with
  | none => none
  | some link =>
    match link.receive .near with
    | .nothing => none
    | .message text link => some ((n.onLink line fun _ => link).hear t task line text)
    | .ended => some ((n.reportClosed task).giveUp t task)

/-- A task does what comes next; none if it has to wait. -/
def work (n : Network) (t : Nat) : Option Network :=
  match n.tasks[t]? with
  | none => none
  | some task =>
    match task.phase with
    | .finished => none
    | .calling => if task.cancelled then some (n.giveUp t task) else some (n.place t task)
    | .awaiting line | .listening line =>
      if task.cancelled then some (n.giveUp t task) else n.listen t task line

/-- The lines on which a client called and which are answered by hand, in the order of the
calls. -/
def unanswered (n : Network) (s : Nat) : List Nat :=
  (List.range n.relay.lines.length).filter fun line =>
    n.relay.lines[line]?.any (·.attendant = .outsider s)

/-- The relay's attendant of a line does what comes next; none if it has to wait. -/
def attend (n : Network) (line : Nat) : Option Network :=
  (n.relay.attend line).map fun relay => { n with relay }

end Network

end TurtleScript
