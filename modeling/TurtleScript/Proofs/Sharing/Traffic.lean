-- All traffic on the lines of a relay. Callers come and go and do with their
-- ends of the lines what they want, in any order, and attendants do what they
-- have to. A record is kept of the messages, those that are lost included.
import Mathlib.Logic.Function.Basic
import TurtleScript.Proofs.Sharing.Wording
import TurtleScript.Sharing.Relay

namespace TurtleScript

/-! ## The near end of a line -/

/-- What a caller can do with its end of a line. -/
inductive Doing where
  | say (text : String)
  | take
  | hangUp
  | shut
  | abandon
  | close
  | leave
  deriving DecidableEq, Repr

namespace Link

/-- The link after its near end has done something. -/
def near (l : Link) : Doing → Link
  | .say text => l.send .near text
  | .take =>
    match l.receive .near with
    | .message _ rest => rest
    | _ => l
  | .hangUp => l.hangUp .near
  | .shut => l.withIncoming (l.incoming .near).close .near
  | .abandon => l.abandon .near
  | .close => l.close .near
  | .leave => l.leave .near

/-- The messages that are on their way to the far end by that. -/
def put (l : Link) : Doing → List String
  | .say text => if l.up.takesMore then [text] else []
  | _ => []

/-- The messages that are not on their way to the near end any more, be they received or lost. -/
def got (l : Link) : Doing → List String
  | .take => l.down.waiting.take 1
  | .abandon | .leave => l.down.waiting
  | _ => []

theorem near_take (l : Link) :
    l.near .take = { l with down := { l.down with waiting := l.down.waiting.drop 1 } } := by
  obtain ⟨up, ⟨waiting, hasSender, isOpen⟩⟩ := l
  cases waiting with
  | nil => cases hasSender <;> cases isOpen <;> rfl
  | cons text rest => rfl

/-- The near end adds to what goes up and removes from what comes down. It cannot keep the far
end from sending for a while only. -/
theorem near_spec (l : Link) (d : Doing) :
    (l.near d).up.waiting = l.up.waiting ++ l.put d ∧
      l.down.waiting = l.got d ++ (l.near d).down.waiting ∧
      (l.near d).down.hasSender = l.down.hasSender ∧
      ((l.near d).down.isOpen = true → l.down.isOpen = true) := by
  cases d with
  | say text =>
    cases hmore : l.up.takesMore <;>
      simp [near, put, got, send, send?, outgoing, Pipe.send?, hmore, withOutgoing]
  | take =>
    rw [near_take]
    exact ⟨by simp [put], (List.take_append_drop 1 _).symm, rfl, id⟩
  | _ =>
    simp [near, put, got, hangUp, close, leave, abandon, withOutgoing, withIncoming, outgoing,
      incoming, Pipe.hangUp, Pipe.close, Pipe.abandon]

end Link

/-! ## Records -/

/-- The messages that a caller has put on a line, those of them that its attendant has dealt
with, and the messages of the attendant that are not on their way any more. -/
structure Record where
  said : List String
  heard : List String
  got : List String
  deriving DecidableEq, Repr

namespace Record

def empty : Record := ⟨[], [], []⟩

/-- What the caller asked for by its first message. -/
def request? (r : Record) : Option (Message Json) := r.heard.head?.bind Message.relayed?

/-- The actions that the caller has passed on after its first message. -/
def actions (r : Record) : List String := r.heard.tail.filterMap passedAction?

theorem request?_of_prefix {r r' : Record} (h : r.heard <+: r'.heard) {m : Message Json}
    (hm : r.request? = some m) : r'.request? = some m := by
  obtain ⟨more, hmore⟩ := h
  unfold request? at hm ⊢
  rw [← hmore]
  cases hheard : r.heard with
  | nil => simp [hheard] at hm
  | cons first heard =>
    rw [hheard] at hm
    exact hm

theorem actions_prefix {r r' : Record} (h : r.heard <+: r'.heard) :
    r.actions <+: r'.actions := by
  unfold actions
  obtain ⟨more, hmore⟩ := h
  rw [← hmore]
  cases r.heard with
  | nil => exact List.nil_prefix
  | cons first heard =>
    rw [List.cons_append, List.tail_cons, List.tail_cons, List.filterMap_append]
    exact List.prefix_append _ _

/-- After the first message, each further one adds the action that it passes on, if any. -/
theorem actions_snoc {r r' : Record} {text : String} {m : Message Json}
    (hm : r.request? = some m) (h : r'.heard = r.heard ++ [text]) :
    r'.actions = r.actions ++ (passedAction? text).toList := by
  unfold actions
  rw [h]
  cases hheard : r.heard with
  | nil => simp [request?, hheard] at hm
  | cons first heard =>
    rw [List.cons_append, List.tail_cons, List.tail_cons, List.filterMap_append]
    cases haction : passedAction? text <;> simp [haction]

end Record

/-! ## Incidents -/

/-- A relay, and for each of its lines the record of all messages so far. -/
structure Traffic where
  relay : Relay
  records : Nat → Record

/-- A new caller, something that a caller does, or a step of an attendant. -/
inductive Incident where
  | call
  | caller (n : Nat) (d : Doing)
  | attend (n : Nat)
  deriving DecidableEq, Repr

namespace Traffic

/-- A relay without callers. -/
def start (ids : SessionIds) : Traffic := ⟨.fresh ids, fun _ => .empty⟩

/-- Adds to the record of a line. -/
def note (t : Traffic) (n : Nat) (r : Record) : Nat → Record :=
  Function.update t.records n
    ⟨(t.records n).said ++ r.said, (t.records n).heard ++ r.heard, (t.records n).got ++ r.got⟩

/-- One incident. If it cannot happen then nothing does. -/
def step (t : Traffic) : Incident → Traffic
  | .call => { t with relay := t.relay.connect .greeting }
  | .caller n d =>
    match t.relay.link? n with
    | none => t
    | some link => ⟨t.relay.onLink n (·.near d), t.note n ⟨link.put d, [], link.got d⟩⟩
  | .attend n =>
    match t.relay.link? n, t.relay.attend n with
    | some link, some relay => ⟨relay, t.note n ⟨[], link.up.waiting.take 1, []⟩⟩
    | _, _ => t

def run (t : Traffic) (incidents : List Incident) : Traffic := incidents.foldl step t

/-- All messages that the attendant of a line has sent so far. -/
def told (t : Traffic) (n : Nat) : List String :=
  (t.records n).got ++ (t.relay.link? n).elim [] (·.down.waiting)

/-- A caller that asked for a session and was told its id, and nothing else. -/
def Presents (t : Traffic) (p : Nat) (id : String) : Prop :=
  (t.records p).request? = some .startSharing ∧ t.told p = [assignedText id]

/-- A caller that asked to watch a session. -/
def Asks (t : Traffic) (w : Nat) (id : String) : Prop :=
  (t.records w).request? = some (.startWatching id)

variable {t t' : Traffic} {n p w : Nat} {id id' : String} {line : Line}

theorem told_of_line (h : t.relay.lines[n]? = some line) :
    t.told n = (t.records n).got ++ line.link.down.waiting := by
  simp [told, Relay.link?, h]

theorem Asks.not_presents (h : t.Asks w id) : ¬ t.Presents w id' := by
  intro hpresents
  unfold Asks at h
  rw [hpresents.1] at h
  simp at h

theorem Asks.inj (h : t.Asks w id) (h' : t.Asks w id') : id = id' := by
  unfold Asks at h h'
  rw [h] at h'
  simpa using h'

/-! ## Steps -/

theorem step_caller (hline : t.relay.lines[n]? = some line) {d : Doing}
    (h : t.step (.caller n d) = t') : t'.relay = t.relay.onLink n (·.near d) ∧
      t'.records n = ⟨(t.records n).said ++ line.link.put d, (t.records n).heard,
        (t.records n).got ++ line.link.got d⟩ ∧ ∀ m, m ≠ n → t'.records m = t.records m := by
  subst h
  simp +contextual [step, Relay.link?, hline, note]

theorem step_caller_none (hline : t.relay.lines[n]? = none) (d : Doing) :
    t.step (.caller n d) = t := by
  simp [step, Relay.link?, hline]

/-- An attendant has dealt with what came next on its line. -/
structure Deals (t t' : Traffic) (n : Nat) (line : Line) : Prop where
  before : t.relay.lines[n]? = some line
  record : t'.records n = ⟨(t.records n).said,
    (t.records n).heard ++ line.link.up.waiting.take 1, (t.records n).got⟩
  others : ∀ m, m ≠ n → t'.records m = t.records m

theorem step_attend (hline : t.relay.lines[n]? = some line) {r : Relay}
    (hattend : t.relay.attend n = some r) (h : t.step (.attend n) = t') :
    t'.relay = r ∧ t.Deals t' n line := by
  subst h
  refine ⟨?_, hline, ?_, fun m hm => ?_⟩
  · simp [step, Relay.link?, hline, hattend]
  · simp [step, Relay.link?, hline, hattend, note]
  · simp [step, Relay.link?, hline, hattend, note, hm]

theorem step_attend_none (h : t.relay.attend n = none) : t.step (.attend n) = t := by
  simp [step, h]

end Traffic

end TurtleScript
