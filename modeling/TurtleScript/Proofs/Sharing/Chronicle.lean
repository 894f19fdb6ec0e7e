-- Everything that can happen in a network of any number of clients, in any
-- order, and a record of what the clients have dealt with. Here is also what a
-- turn of a client does to the network, and all that a task can do next.
import TurtleScript.Proofs.Sharing.Traffic
import TurtleScript.Proofs.Sharing.Turning
import TurtleScript.Proofs.Sharing.Working

namespace TurtleScript

/-! ## Happenings -/

/-- What can happen. A user acts, at once or through the inbox of the client; a client deals with
its next event; a task or an attendant works, and a task that was given up may do something more
before it looks; somebody who answers a call by hand does something at the far end of the line. -/
inductive Happening where
  | act (station : Nat) (action : Action)
  | entrust (station : Nat) (action : Action)
  | process (station : Nat)
  | work (task : Nat)
  | lag (task : Nat)
  | attend (line : Nat)
  | answer (line : Nat) (d : Doing)
  deriving DecidableEq, Repr

/-- The link after its far end has done something. -/
def Link.far (l : Link) : Doing → Link
  | .say text => l.send .far text
  | .take =>
    match l.receive .far with
    | .message _ rest => rest
    | _ => l
  | .hangUp => l.hangUp .far
  | .shut => l.withIncoming (l.incoming .far).close .far
  | .abandon => l.abandon .far
  | .close => l.close .far
  | .leave => l.leave .far

/-- Somebody answers the calls on a line by hand. -/
def Line.isByHand (l : Line) : Bool :=
  match l.attendant with
  | .outsider _ => true
  | _ => false

/-- Something that a client dealt with, and the client before it. -/
structure Deed where
  station : Nat
  client : Client
  event : Event

/-- What the client made of it. -/
def Deed.turn (d : Deed) : Turn := d.client.process d.event

namespace Network

/-- What cannot happen changes nothing. -/
def happen (n : Network) : Happening → Network
  | .act s action => (n.dispatch s action).1
  | .entrust s action => n.report s (.action action)
  | .process s => ((n.process? s).map (·.1)).getD n
  | .work t => (n.work t).getD n
  | .lag t => (n.lag t).getD n
  | .attend line => (n.attend line).getD n
  | .answer line d =>
    if n.relay.lines[line]?.any Line.isByHand then n.onLink line (·.far d) else n

/-- What a client deals with by that. -/
def deed? (n : Network) : Happening → Option Deed
  | .act s action => n.stations[s]?.map fun station => ⟨s, station.client, .action action⟩
  | .process s =>
    n.stations[s]?.bind fun station => station.inbox.head?.map fun event => ⟨s, station.client, event⟩
  | _ => none

def client? (n : Network) (s : Nat) : Option Client := n.stations[s]?.map (·.client)

def inbox (n : Network) (s : Nat) : List Event := n.stations[s]?.elim [] (·.inbox)

/-- Where the calls from a station end up. -/
def route? (n : Network) (s : Nat) : Option Route := n.stations[s]?.map (·.route)

end Network

/-- A client at the beginning: its script is some timeline, and it has no sessions. -/
structure Seat where
  config : Config
  script : Timeline Script
  route : Route

def Seat.station (seat : Seat) : Station :=
  ⟨.new seat.config ⟨seat.script, .idle⟩, [], seat.route⟩

/-- A network, and what its clients have dealt with so far. -/
structure Chronicle where
  network : Network
  deeds : List Deed

namespace Chronicle

/-- Some clients and a relay before anything has happened. -/
def start (ids : SessionIds) (seats : List Seat) : Chronicle :=
  ⟨⟨.fresh ids, seats.map Seat.station, []⟩, []⟩

def step (c : Chronicle) (h : Happening) : Chronicle :=
  ⟨c.network.happen h, c.deeds ++ (c.network.deed? h).toList⟩

def run (c : Chronicle) (hs : List Happening) : Chronicle := hs.foldl step c

/-- What the client of a station has dealt with. -/
def deedsOf (c : Chronicle) (s : Nat) : List Deed := c.deeds.filter (·.station = s)

end Chronicle

/-! ## Tasks -/

/-- A task, no matter whether it was given up. -/
def Task.job (t : Task) : Task := { t with cancelled := false }

/-- All tasks, no matter which were given up. -/
def Network.jobs (n : Network) : List Task := n.tasks.map Task.job

/-- The task that an effect calls for. -/
def Effect.job? (s : Nat) : Effect → Option Task
  | .present generation => some ⟨s, generation, .present, .calling, false⟩
  | .watch generation id => some ⟨s, generation, .watch id, .calling, false⟩
  | _ => none

/-- The tasks that a turn calls for. -/
def Turn.jobs (t : Turn) (s : Nat) : List Task := t.effects.filterMap (Effect.job? s)

/-- How a task waits on the line on which it has called. -/
def Task.waits (t : Task) (line : Nat) : Phase :=
  match t.purpose with
  | .present => .awaiting line
  | .watch _ => .listening line

/-- What a task tells its client as soon as it has called. -/
def Task.calledNews (t : Task) : List Event :=
  match t.purpose with
  | .present => []
  | .watch _ => [.observerJoined t.generation]

/-- Who attends to the calls from a station. -/
def Route.attendant? (s : Nat) : Route → Option Attendant
  | .relay => some .greeting
  | .byHand => some (.outsider s)
  | .nowhere => none

namespace Relay

/-- The caller of a line does something. -/
def near (r : Relay) (line : Nat) (d : Doing) : Relay := r.onLink line (·.near d)

/-- What an effect does to the lines. -/
def carry (r : Relay) : Effect → Relay
  | .send line message => r.near line (.say message.text)
  | .hangUp line => r.near line .hangUp
  | _ => r

end Relay

/-- What a task can do next: it calls, quits, hears the id of its session, hears an action, or
passes over what a presenter hears. Here are the relay, how far the task has come, and what it tells
its client. -/
inductive Task.Works (r : Relay) (route? : Option Route) (j : Task) :
    Relay → Phase → List Event → Prop
  | calls {attendant : Attendant} (h : j.phase = .calling)
      (ha : route?.bind (Route.attendant? j.station) = some attendant) :
      Works r route? j ((r.connect attendant).near r.lines.length (.say j.greeting.text))
        (j.waits r.lines.length) j.calledNews
  | quits {news : List Event} (h : j.phase ≠ .finished)
      (hnews : news = [] ∨ news = [.sessionClosed j.role j.generation]) (line : Nat)
      (ds : List Doing) (hds : ∀ d ∈ ds, ∀ text, d ≠ .say text) :
      Works r route? j (ds.foldl (fun r d => r.near line d) r) .finished news
  | assigned {line : Nat} {link : Link} {text id : String} {rest : List String}
      (h : j.phase = .awaiting line) (hlink : r.link? line = some link)
      (hwaiting : link.down.waiting = text :: rest) (hid : assignedId? text = some id) :
      Works r route? j (r.near line .take) (.listening line)
        [.presenterReady j.generation id line]
  | hears {line : Nat} {link : Link} {text id : String} {rest : List String} {action : Action}
      (h : j.phase = .listening line) (hpurpose : j.purpose = .watch id)
      (hlink : r.link? line = some link) (hwaiting : link.down.waiting = text :: rest)
      (haction : Action.ofText? text = some action) :
      Works r route? j (r.near line .take) (.listening line) [.remote j.generation action]
  | passesOver {line : Nat} (h : j.phase = .listening line) (hpurpose : j.purpose = .present) :
      Works r route? j (r.near line .take) (.listening line) []

namespace Network

variable {n : Network} {s t u line : Nat} {task : Task} {link : Link} {event : Event}

/-! ## Turns in a network -/

theorem jobs_carryOut (n : Network) (s : Nat) (e : Effect) :
    (n.carryOut s e).jobs = n.jobs ++ (e.job? s).toList := by
  cases e with
  | cancel generation =>
    have hsame : ∀ t : Task, Task.job
        (if t.station = s ∧ t.generation = generation then { t with cancelled := true } else t) =
          t.job := by
      intro t
      split <;> rfl
    simp [carryOut, jobs, Effect.job?, hsame]
  | _ => simp [carryOut, jobs, Effect.job?, onLink, Task.job]

theorem stations_carryOut (n : Network) (s : Nat) (e : Effect) :
    (n.carryOut s e).stations = n.stations := by
  cases e <;> rfl

theorem relay_carryOut (n : Network) (s : Nat) (e : Effect) :
    (n.carryOut s e).relay = n.relay.carry e := by
  cases e <;> rfl

theorem jobs_complete (n : Network) (s : Nat) (t : Turn) :
    (n.complete s t).jobs = n.jobs ++ t.jobs s := by
  have hall : ∀ (effects : List Effect) (m : Network),
      (effects.foldl (carryOut · s) m).jobs = m.jobs ++ effects.filterMap (Effect.job? s) := by
    intro effects
    induction effects with
    | nil => simp
    | cons e effects ih =>
      intro m
      rw [List.foldl_cons, ih, jobs_carryOut, List.append_assoc, List.filterMap_cons]
      cases e.job? s <;> simp
  exact hall t.effects _

theorem stations_complete (n : Network) (s : Nat) (t : Turn) :
    (n.complete s t).stations =
      n.stations.modify s fun station => { station with client := t.client } := by
  have hall : ∀ (effects : List Effect) (m : Network),
      (effects.foldl (carryOut · s) m).stations = m.stations := by
    intro effects
    induction effects with
    | nil => exact fun m => rfl
    | cons e effects ih =>
      intro m
      rw [List.foldl_cons, ih, stations_carryOut]
  exact hall t.effects _

theorem relay_complete (n : Network) (s : Nat) (t : Turn) :
    (n.complete s t).relay = t.effects.foldl Relay.carry n.relay := by
  have hall : ∀ (effects : List Effect) (m : Network),
      (effects.foldl (carryOut · s) m).relay = effects.foldl Relay.carry m.relay := by
    intro effects
    induction effects with
    | nil => exact fun m => rfl
    | cons e effects ih =>
      intro m
      rw [List.foldl_cons, ih, relay_carryOut]
      rfl
  exact hall t.effects _

/-! ## Stations -/

theorem client?_complete (n : Network) (s u : Nat) (t : Turn) :
    (n.complete s t).client? u = if u = s then (n.client? s).map fun _ => t.client else n.client? u := by
  unfold client?
  rw [stations_complete, List.getElem?_modify]
  by_cases hu : u = s
  · subst hu
    cases n.stations[u]? <;> simp
  · simp [hu, Ne.symm hu]

theorem inbox_complete (n : Network) (s u : Nat) (t : Turn) :
    (n.complete s t).inbox u = n.inbox u := by
  unfold inbox
  rw [stations_complete, List.getElem?_modify]
  cases n.stations[u]? with
  | none => rfl
  | some station => by_cases hu : s = u <;> simp [hu]

theorem route?_complete (n : Network) (s u : Nat) (t : Turn) :
    (n.complete s t).route? u = n.route? u := by
  unfold route?
  rw [stations_complete, List.getElem?_modify]
  cases n.stations[u]? with
  | none => rfl
  | some station => by_cases hu : s = u <;> simp [hu]

theorem client?_report (n : Network) (s u : Nat) (event : Event) :
    (n.report s event).client? u = n.client? u := by
  simp only [client?, report, onStation, List.getElem?_modify]
  cases n.stations[u]? with
  | none => rfl
  | some station => by_cases hu : s = u <;> simp [hu]

theorem route?_report (n : Network) (s u : Nat) (event : Event) :
    (n.report s event).route? u = n.route? u := by
  simp only [route?, report, onStation, List.getElem?_modify]
  cases n.stations[u]? with
  | none => rfl
  | some station => by_cases hu : s = u <;> simp [hu]

/-- An event is put behind those that wait, if there is such a station. -/
theorem inbox_report (n : Network) (s u : Nat) (event : Event) :
    ∃ more, (n.report s event).inbox u = n.inbox u ++ more ∧
      more.Sublist (if u = s then [event] else []) := by
  simp only [inbox, report, onStation, List.getElem?_modify]
  cases n.stations[u]? with
  | none => exact ⟨[], rfl, List.nil_sublist _⟩
  | some station =>
    by_cases hu : s = u
    · exact ⟨[event], by simp [hu], by simp [hu]⟩
    · exact ⟨[], by simp [hu], by simp⟩

end Network

end TurtleScript
