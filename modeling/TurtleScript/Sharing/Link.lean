-- Links between two ends: a pipe for each direction. Messages arrive in the
-- order they were sent, and what was sent stays receivable after the sender
-- has gone.

namespace TurtleScript

/-! ## One direction -/

/-- The messages on their way, whether there still is a sender, and whether the receiver takes
more of them. -/
structure Pipe where
  waiting : List String
  hasSender : Bool
  isOpen : Bool
  deriving DecidableEq, Repr

/-- What a receiver finds: a message and what is left, the end of all messages, or nothing
yet. -/
inductive Reception (σ : Type) where
  | message (text : String) (rest : σ)
  | ended
  | nothing
  deriving DecidableEq, Repr

/-- The same, with what is left turned into something else. -/
def Reception.map {σ τ : Type} (f : σ → τ) : Reception σ → Reception τ
  | message text rest => .message text (f rest)
  | ended => .ended
  | nothing => .nothing

namespace Pipe

/-- A pipe that nothing was sent through. -/
def fresh : Pipe := ⟨[], true, true⟩

/-- A message can be sent. -/
def takesMore (p : Pipe) : Bool := p.hasSender && p.isOpen

/-- Sends a message, if that is still possible. -/
def send? (p : Pipe) (text : String) : Option Pipe :=
  if p.takesMore then some { p with waiting := p.waiting ++ [text] } else none

/-- Receives the message that was sent first. -/
def receive (p : Pipe) : Reception Pipe :=
  match p.waiting with
  | text :: rest => .message text { p with waiting := rest }
  | [] => if p.takesMore then .nothing else .ended

/-- The sender goes. -/
def hangUp (p : Pipe) : Pipe := { p with hasSender := false }

/-- The receiver takes no more, but keeps what is on its way. -/
def close (p : Pipe) : Pipe := { p with isOpen := false }

/-- The receiver goes, and with it all that was on its way. -/
def abandon (p : Pipe) : Pipe := { p with waiting := [], isOpen := false }

end Pipe

/-! ## Both directions -/

/-- The two ends of a link: the near one calls, the far one is called. -/
inductive End where
  | near
  | far
  deriving DecidableEq, Repr

/-- A link: one pipe up to the far end and one down to the near end. -/
structure Link where
  up : Pipe
  down : Pipe
  deriving DecidableEq, Repr

namespace Link

/-- A link that nothing was sent over. -/
def fresh : Link := ⟨.fresh, .fresh⟩

/-- The pipe that an end sends into. -/
def outgoing (l : Link) : End → Pipe
  | .near => l.up
  | .far => l.down

/-- The pipe that an end receives from. -/
def incoming (l : Link) : End → Pipe
  | .near => l.down
  | .far => l.up

def withOutgoing (l : Link) (p : Pipe) : End → Link
  | .near => { l with up := p }
  | .far => { l with down := p }

def withIncoming (l : Link) (p : Pipe) : End → Link
  | .near => { l with down := p }
  | .far => { l with up := p }

/-- An end sends a message, if that is still possible. -/
def send? (l : Link) (e : End) (text : String) : Option Link :=
  ((l.outgoing e).send? text).map fun p => l.withOutgoing p e

/-- An end sends a message; it is lost if that is not possible any more. -/
def send (l : Link) (e : End) (text : String) : Link := (l.send? e text).getD l

/-- An end receives a message. -/
def receive (l : Link) (e : End) : Reception Link :=
  (l.incoming e).receive.map fun p => l.withIncoming p e

/-- An end sends no more. -/
def hangUp (l : Link) (e : End) : Link := l.withOutgoing (l.outgoing e).hangUp e

/-- An end receives no more. -/
def abandon (l : Link) (e : End) : Link := l.withIncoming (l.incoming e).abandon e

/-- An end sends no more and takes only what is already on its way. -/
def close (l : Link) (e : End) : Link :=
  (l.hangUp e).withIncoming (l.incoming e).close e

/-- An end goes. -/
def leave (l : Link) (e : End) : Link := (l.hangUp e).abandon e

/-- Receives all messages on their way to an end; the second part says that no more will
come. -/
def receiveAll (l : Link) (e : End) : List String × Bool × Link :=
  let p := l.incoming e
  (p.waiting, !p.takesMore, l.withIncoming { p with waiting := [] } e)

end Link

end TurtleScript
