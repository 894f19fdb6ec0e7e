-- A presenter, a relay and an observer, and everything that can happen between
-- them, in any order. Beside the network stands what can only be said of its
-- past: which lines of script the relay has been or will be sent, which of
-- them it never hears, and whether it has let the observer in.
import TurtleScript.Proofs.Performing
import TurtleScript.Proofs.Taking
import TurtleScript.Sharing.Network

namespace TurtleScript

/-! ## Moves -/

/-- What can happen. The presenter submits a line, names its script or stops sharing; the observer
follows a link; a client deals with its next event; a task or an attendant works. A task that was
given up may do something more before it looks. -/
inductive Move where
  | submit (text : String)
  | rename (name : String)
  | stop
  | watch (url : String)
  | process (station : Nat)
  | work (task : Nat)
  | lag (task : Nat)
  | attend (line : Nat)
  deriving DecidableEq, Repr

namespace Network

/-- A task does what comes next without looking whether it was given up. -/
def lag (n : Network) (t : Nat) : Option Network :=
  match n.tasks[t]? with
  | none => none
  | some task =>
    match task.phase with
    | .finished => none
    | .calling => some (n.place t task)
    | .awaiting line | .listening line => n.listen t task line

/-- The presenter is the first station and the observer the second. What cannot happen changes
nothing. -/
def move (n : Network) : Move → Network
  | .submit text => (n.dispatch 0 (.submit text)).1
  | .rename name => (n.dispatch 0 (.rename name)).1
  | .stop => (n.dispatch 0 .stopSharing).1
  | .watch url => (n.dispatch 1 (.tryStartWatching url)).1
  | .process s => ((n.process? s).map (·.1)).getD n
  | .work t => (n.work t).getD n
  | .lag t => (n.lag t).getD n
  | .attend line => (n.attend line).getD n

/-- Nobody has anything left to do: no event waits, no task and no attendant can go on. -/
def AtRest (n : Network) : Prop :=
  (∀ s, n.process? s = none) ∧ (∀ t, n.work t = none) ∧ ∀ line, n.attend line = none

/-- The session that the presenter has. -/
def presenting? (n : Network) : Option Presenting := n.stations[0]?.bind (·.client.presenting)

/-- The session that the observer watches has the task `t`. -/
def watches (n : Network) (t : Task) : Bool :=
  t.station = 1 && n.stations[1]?.any (·.client.isWatching t.generation)

/-- The relay attends to the observer as a watcher. -/
def isAttended (n : Network) : Bool :=
  n.tasks.any fun t =>
    n.watches t && match t.phase with
      | .listening line => n.relay.lines[line]?.any (·.attendant = .watching)
      | _ => false

/-- The observer's call for the session `id` waits on a line for an answer. -/
def asks (n : Network) (id : String) (line : Nat) : Prop :=
  ∃ t ∈ n.tasks, n.watches t = true ∧ t.purpose = .watch id ∧ t.phase = .listening line ∧
    ∃ link, n.relay.lines[line]? = some ⟨link, .greeting⟩

end Network

/-! ## Broadcasts -/

/-- A network, the lines of script that the relay has been or will be sent, those that it is not,
and whether the observer was let into the session it asked for last. -/
structure Broadcast where
  network : Network
  relayed : List String
  unheard : List String
  joined : Bool

namespace Broadcast

/-- The presenter has just begun to share a script that some actions have made, with a relay that
has some ids left to give out; the observer has done nothing yet. -/
def start (presenter observer : Config) (actions : List Action) (fresh : Bool)
    (ids : SessionIds) : Broadcast :=
  let store := Store.after actions
  let stations := [⟨.new presenter store, [], .relay⟩, ⟨.new observer .empty, [], .relay⟩]
  { network := ((Network.mk (.fresh ids) stations []).dispatch 0 (.startSharing fresh)).1
    relayed := if fresh then [] else submissions store.present.tokens.toList
    unheard := []
    joined := false }

/-- What a move adds to the past. A line submitted without a session is never heard, and neither
are those that were kept for a session that was stopped before it had a line. -/
def move (b : Broadcast) (m : Move) : Broadcast :=
  let network := b.network.move m
  let past := match m, b.network.presenting? with
    | .submit text, some _ => (b.relayed ++ [text], b.unheard)
    | .submit text, none => (b.relayed, b.unheard ++ [text])
    | .stop, some ⟨_, _, .pending _⟩ => ([], b.relayed ++ b.unheard)
    | _, _ => (b.relayed, b.unheard)
  let asked := match m with
    | .watch url => (watchingId? url).isSome
    | _ => false
  { network, relayed := past.1, unheard := past.2
    joined := (b.joined && !asked) || network.isAttended }

end Broadcast

/-- The script that some lines make, apart from its name and its error. -/
def scriptOf (texts : List String) : Script := (texts.foldl Script.submit .empty).bare

theorem scriptOf_append (texts : List String) (text : String) :
    scriptOf (texts ++ [text]) = ((scriptOf texts).submit text).bare := by
  unfold scriptOf
  rw [List.foldl_append]
  exact Script.bare_submit _ text

end TurtleScript
