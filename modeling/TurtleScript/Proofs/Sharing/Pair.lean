-- The network of a presenter and an observer, and the turns of its clients:
-- what each asks for, and what it remembers of its sessions afterwards.
import TurtleScript.Proofs.Sharing.Broadcast

namespace TurtleScript

/-! ## Turns of a presenter -/

namespace Client

section Presenter

variable {c : Client} {id : String} {generation line : Nat} {known : Option String}
  {messages : List (Message Action)}

theorem submit_unshared (h : c.presenting = none) (text : String) :
    (c.dispatch (.submit text)).effects = [] ∧
      (c.dispatch (.submit text)).client.presenting = none := by
  obtain ⟨config, store, presenting, watching, latest⟩ := c
  subst h
  exact ⟨rfl, rfl⟩

theorem submit_kept (h : c.presenting = some ⟨generation, known, .pending messages⟩)
    (text : String) :
    (c.dispatch (.submit text)).effects = [] ∧
      (c.dispatch (.submit text)).client.presenting =
        some ⟨generation, known, .pending (messages ++ [.newAction (.submit text)])⟩ := by
  obtain ⟨config, store, presenting, watching, latest⟩ := c
  subst h
  exact ⟨rfl, rfl⟩

theorem submit_sent (h : c.presenting = some ⟨generation, known, .open line⟩)
    (text : String) :
    (c.dispatch (.submit text)).effects = [.send line (.newAction (.submit text))] ∧
      (c.dispatch (.submit text)).client.presenting = c.presenting := by
  obtain ⟨config, store, presenting, watching, latest⟩ := c
  subst h
  exact ⟨rfl, rfl⟩

theorem rename_turn (c : Client) (name : String) :
    (c.dispatch (.rename name)).effects = [] ∧
      (c.dispatch (.rename name)).client.presenting = c.presenting := ⟨rfl, rfl⟩

theorem stop_unshared (h : c.presenting = none) :
    (c.dispatch .stopSharing).effects = [] ∧ (c.dispatch .stopSharing).client.presenting = none := by
  obtain ⟨config, store, presenting, watching, latest⟩ := c
  subst h
  exact ⟨rfl, rfl⟩

theorem stop_shared {p : Presenting} (h : c.presenting = some p) :
    (c.dispatch .stopSharing).effects = closing p ∧
      (c.dispatch .stopSharing).client.presenting = none := by
  obtain ⟨config, store, presenting, watching, latest⟩ := c
  subst h
  refine ⟨?_, rfl⟩
  show [] ++ (closing p ++ []) = closing p
  simp

theorem present_stop (c : Client) : (c.dispatch .stopSharing).client.present = c.present := by
  obtain ⟨config, store, presenting, watching, latest⟩ := c
  have hstop : (store.dispatch .stopSharing).present = store.present :=
    Store.present_dispatch store (by simp) (by simp)
  cases presenting with
  | none => exact hstop
  | some p =>
    have hstopped : ((store.dispatch .stopSharing).dispatch .stoppedSharing).present =
        (store.dispatch .stopSharing).present := Store.present_dispatch _ (by simp) (by simp)
    exact hstopped.trans hstop

theorem ready_unshared (h : c.presenting = none) :
    c.process (.presenterReady generation id line) = c.ask [.hangUp line] := by
  simp [process, h]

/-- A presenter that hears of its line sends all that it has kept. -/
theorem ready_kept (h : c.presenting = some ⟨generation, known, .pending messages⟩)
    (id : String) (line : Nat) :
    (c.process (.presenterReady generation id line)).effects = messages.map (.send line) ∧
      (c.process (.presenterReady generation id line)).client.presenting =
        some ⟨generation, some id, .open line⟩ := by
  obtain ⟨config, store, presenting, watching, latest⟩ := c
  subst h
  simp [process, establish, Turn.andThen, ask, record]

theorem present_ready (c : Client) :
    (c.process (.presenterReady generation id line)).client.present = c.present := by
  obtain ⟨config, store, presenting, watching, latest⟩ := c
  have hstarted : (store.dispatch (.startedSharing (config.shareUrl id))).present = store.present :=
    Store.present_dispatch store (by simp) (by simp)
  cases presenting with
  | none => rfl
  | some p =>
    by_cases hp : p.generation = generation
    · simpa [process, hp, establish, Turn.andThen, ask, record, present] using hstarted
    · simp [process, hp, ask, present]

theorem closed_unshared (h : c.presenting = none) :
    c.process (.sessionClosed .presenter generation) = c.stay := by
  simp [process, isPresenting, h]

theorem closed_shared {p : Presenting} (h : c.presenting = some p) (hp : p.generation = generation) :
    (c.process (.sessionClosed .presenter generation)).effects = closing p ∧
      (c.process (.sessionClosed .presenter generation)).client.presenting = none := by
  obtain ⟨config, store, presenting, watching, latest⟩ := c
  subst h
  simp [process, isPresenting, hp, dropPresenting, Turn.andThen, ask, record]

theorem present_closed (c : Client) (role : Role) :
    (c.process (.sessionClosed role generation)).client.present = c.present := by
  obtain ⟨config, store, presenting, watching, latest⟩ := c
  have hsharing : (store.dispatch .stoppedSharing).present = store.present :=
    Store.present_dispatch store (by simp) (by simp)
  have hwatching : (store.dispatch .stoppedWatching).present = store.present :=
    Store.present_dispatch store (by simp) (by simp)
  cases role with
  | presenter =>
    cases presenting with
    | none => rfl
    | some p =>
      by_cases hp : p.generation = generation
      · simpa [process, isPresenting, hp, dropPresenting, Turn.andThen, ask, record, present]
          using hsharing
      · simp [process, isPresenting, hp, stay, present]
  | observer =>
    cases watching with
    | none => rfl
    | some w =>
      by_cases hw : w.generation = generation
      · simpa [process, isWatching, hw, dropWatching, Turn.andThen, ask, record, present]
          using hwatching
      · simp [process, isWatching, hw, stay, present]

end Presenter

/-! ## Turns of an observer -/

section Observer

variable {c : Client} {url id : String} {generation : Nat} {w : Watching}

/-- What an observer remembers besides its script. -/
structure SameSeat (c d : Client) : Prop where
  presenting : d.presenting = c.presenting
  watching : d.watching = c.watching
  generation : d.generation = c.generation

theorem watch_nowhere (h : watchingId? url = none) :
    (c.dispatch (.tryStartWatching url)).effects = [] ∧
      c.SameSeat (c.dispatch (.tryStartWatching url)).client ∧
      (c.dispatch (.tryStartWatching url)).client.present = c.present := by
  have hturn : c.dispatch (.tryStartWatching url) =
      (c.record (.tryStartWatching url)).andThen (·.stay) := by
    simp [dispatch, perform, startWatching, h]
  rw [hturn]
  exact ⟨rfl, ⟨rfl, rfl, rfl⟩, present_record c (by simp) (by simp)⟩

/-- An observer that follows a link forgets what it has watched before. -/
theorem watch_somewhere (h : watchingId? url = some id) :
    let t := c.dispatch (.tryStartWatching url)
    t.effects = (c.watching.map fun w => Effect.cancel w.generation).toList ++
        [.watch (c.generation + 1) id] ∧
      t.client.presenting = c.presenting ∧
      t.client.watching = some ⟨c.generation + 1, id⟩ ∧ t.client.generation = c.generation + 1 ∧
      t.client.present = .empty := by
  obtain ⟨config, store, presenting, watching, latest⟩ := c
  have hreset : ∀ s : Store, (s.dispatch .reset).present = .empty := fun s =>
    Store.present_dispatch s (by simp) (by simp)
  cases watching <;>
    simp [dispatch, perform, startWatching, h, dropWatching, openWatching, Turn.andThen, record, stay,
      ask, present, hreset]

/-- A line of script that an observer gets goes through its store and nowhere else. -/
theorem submit_turn (h : c.presenting = none) (text : String) :
    (c.dispatch (.submit text)).effects = [] ∧ c.SameSeat (c.dispatch (.submit text)).client := by
  obtain ⟨config, store, presenting, watching, latest⟩ := c
  subst h
  exact ⟨rfl, rfl, rfl, rfl⟩

theorem joined_turn (c : Client) (generation : Nat) :
    (c.process (.observerJoined generation)).effects = [] ∧
      c.SameSeat (c.process (.observerJoined generation)).client ∧
      (c.process (.observerJoined generation)).client.present = c.present := by
  simp only [process]
  by_cases hw : c.isWatching generation = true
  · rw [if_pos hw]
    exact ⟨rfl, ⟨rfl, rfl, rfl⟩, present_record c (by simp) (by simp)⟩
  · rw [if_neg hw]
    exact ⟨rfl, ⟨rfl, rfl, rfl⟩, rfl⟩

theorem remote_ignored {action : Action} (h : c.isWatching generation = false) :
    c.process (.remote generation action) = c.stay := by
  simp [process, h]

theorem remote_submit {text : String} (h : c.isWatching generation = true) :
    c.process (.remote generation (.submit text)) = c.dispatch (.submit text) := by
  simp [process, h, Action.isReplayed]

theorem closed_ignored (h : c.isWatching generation = false) :
    c.process (.sessionClosed .observer generation) = c.stay := by
  simp [process, h]

theorem closed_watching (h : c.watching = some w) (hw : w.generation = generation) :
    let t := c.process (.sessionClosed .observer generation)
    t.effects = [.cancel generation] ∧ t.client.presenting = c.presenting ∧
      t.client.watching = none ∧ t.client.generation = c.generation := by
  obtain ⟨config, store, presenting, watching, latest⟩ := c
  subst h
  simp [process, isWatching, hw, dropWatching, Turn.andThen, ask, record]

end Observer

end Client

/-! ## The network of two -/

namespace Network

/-- A presenter and an observer at a relay. -/
def pair (r : Relay) (p : Client) (pin : List Event) (o : Client) (oin : List Event)
    (ts : List Task) : Network :=
  ⟨r, [⟨p, pin, .relay⟩, ⟨o, oin, .relay⟩], ts⟩

section Pair

variable {r : Relay} {p o : Client} {pin oin : List Event} {ts : List Task}

theorem pair_dispatch_zero (action : Action) :
    ((pair r p pin o oin ts).dispatch 0 action).1 =
      (p.dispatch action).effects.foldl (carryOut · 0)
        (pair r (p.dispatch action).client pin o oin ts) := rfl

theorem pair_dispatch_one (action : Action) :
    ((pair r p pin o oin ts).dispatch 1 action).1 =
      (o.dispatch action).effects.foldl (carryOut · 1)
        (pair r p pin (o.dispatch action).client oin ts) := rfl

theorem pair_process_zero (event : Event) :
    ((pair r p (event :: pin) o oin ts).process? 0).map (·.1) =
      some ((p.process event).effects.foldl (carryOut · 0)
        (pair r (p.process event).client pin o oin ts)) := rfl

theorem pair_process_one (event : Event) :
    ((pair r p pin o (event :: oin) ts).process? 1).map (·.1) =
      some ((o.process event).effects.foldl (carryOut · 1)
        (pair r p pin (o.process event).client oin ts)) := rfl

theorem pair_attend (l : Nat) :
    (pair r p pin o oin ts).attend l = (r.attend l).map fun r => pair r p pin o oin ts := rfl

/-- The tasks of a station's session are given up. -/
def giveUpAll (ts : List Task) (s generation : Nat) : List Task :=
  ts.map fun t => if t.station = s ∧ t.generation = generation then { t with cancelled := true } else t

end Pair

end Network

end TurtleScript
