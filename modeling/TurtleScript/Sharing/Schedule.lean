-- One way to let a network run: whoever has something to do is served in
-- turn and works until it has to wait. Clients deal with events only when
-- they are told to. Everybody else comes to rest between two events, except
-- where a client is to go on at once as long as there are events for it.
import TurtleScript.Sharing.Network

namespace TurtleScript

/-! ## Workers -/

/-- Whoever works on its own: the attendant of a line, or a task. -/
inductive Worker where
  | attendant (line : Nat)
  | task (t : Nat)
  deriving DecidableEq, Repr

namespace Network

/-- A worker does what comes next; none if it has to wait. -/
def step (n : Network) : Worker → Option Network
  | .attendant line => n.attend line
  | .task t => n.work t

def workers (n : Network) : List Worker :=
  (List.range n.relay.lines.length).map .attendant ++ (List.range n.tasks.length).map .task

/-- Those who have something to do. -/
def ready (n : Network) : List Worker := n.workers.filter fun w => (n.step w).isSome

/-! ## Coming to rest -/

/-- Lets workers work in the order in which they got something to do. Each works until it has
to wait. -/
def serve : Nat → List Worker → Network → Network
  | 0, _, n => n
  | _ + 1, [], n => n
  | fuel + 1, w :: queue, n =>
    match n.step w with
    | none => serve fuel queue n
    | some n =>
      let others := n.ready.filter fun v => v ≠ w ∧ v ∉ queue
      serve fuel (w :: queue ++ others) n

/-- How many messages are on their way, or would be sent again to one who joins. -/
def load (n : Network) : Nat :=
  let onWay := n.relay.lines.foldl
    (fun count l => count + l.link.up.waiting.length + l.link.down.waiting.length) 0
  n.relay.sessions.foldl (fun count s => count + s.2.log.length) onWay

/-- More steps than there can be before all workers have to wait. -/
def patience (n : Network) : Nat :=
  let reach := 4 * (n.load + 2) * (n.relay.lines.length + n.tasks.length + 2)
  reach * reach

/-- The workers in line, and behind them all others who have something to do. -/
def lineUp (n : Network) (queue : List Worker) : List Worker :=
  queue ++ n.ready.filter (· ∉ queue)

/-- Lets all workers work until they have to wait, beginning with those in line. -/
def settleFrom (n : Network) (queue : List Worker) : Network := serve n.patience queue n

/-- Lets all workers work until they have to wait. -/
def settle (n : Network) : Network := n.settleFrom n.ready

/-! ## Clients at work -/

/-- A client deals with an action, and then all others work. -/
def act (n : Network) (s : Nat) (action : Action) : Network × List Action :=
  let (n, dispatched) := n.dispatch s action
  (n.settle, dispatched)

/-- A client deals with its next event, and then all others work. -/
def react? (n : Network) (s : Nat) : Option (Network × List Action) :=
  (n.process? s).map fun (n, dispatched) => (n.settle, dispatched)

/-- A client deals with events until its inbox is empty, or until some of them have dispatched
actions and their number has reached a limit. The second part is what those events
dispatched. -/
def pump (s : Nat) : Nat → Nat → Network → Network × List (List Action)
  | 0, _, n => (n, [])
  | _ + 1, 0, n => (n, [])
  | fuel + 1, limit + 1, n =>
    match n.react? s with
    | none => (n, [])
    | some (n, []) => pump s fuel (limit + 1) n
    | some (n, actions) =>
      let (n, events) := pump s fuel limit n
      (n, actions :: events)

/-- A client deals with events until one has dispatched an action as wanted. The others work only
when its inbox is empty, in the order in which they got something to do, and at the end. The
second part is false if the inbox was empty first and stays so. -/
def pumpUntil (s : Nat) (wanted : Action → Bool) :
    Nat → List Worker → Network → Network × Bool
  | 0, queue, n => (n.settleFrom queue, false)
  | fuel + 1, queue, n =>
    match n.process? s with
    | some (n, actions) =>
      let queue := n.lineUp queue
      if actions.any wanted then (n.settleFrom queue, true)
      else pumpUntil s wanted fuel queue n
    | none => if queue = [] then (n, false) else pumpUntil s wanted fuel [] (n.settleFrom queue)

end Network

end TurtleScript
