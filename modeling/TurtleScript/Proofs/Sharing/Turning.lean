-- All that a client can do in one turn. A turn is said by what goes through
-- the store, which sessions there are afterwards, and what is asked for; so
-- what every turn keeps is shown by one case for each thing that a client does.
import TurtleScript.Proofs.Performing

namespace TurtleScript

/-- The messages that wait for a line. -/
def Outlet.kept : Outlet → List (Message Action)
  | .pending messages => messages
  | .open _ => []

/-- The action that an action passes on to those who watch, and all that then goes through the
store. -/
def Action.passing? : Action → Option (Action × List Action)
  | .share inner => some (inner, [.share inner])
  | .submit text => some (.submit text, [.share (.submit text), .submit text])
  | _ => none

theorem Action.passing?_cases {action inner : Action} {actions : List Action}
    (h : action.passing? = some (inner, actions)) :
    (∃ text, action = .submit text ∧ inner = .submit text ∧
        actions = [.share (.submit text), .submit text]) ∨
      action = .share inner ∧ actions = [.share inner] := by
  unfold passing? at h
  split at h
  · rw [Option.some.injEq, Prod.mk.injEq] at h
    exact Or.inr ⟨by rw [h.1], by rw [← h.2, h.1]⟩
  · rw [Option.some.injEq, Prod.mk.injEq] at h
    exact Or.inl ⟨_, rfl, h.1.symm, h.2.symm⟩
  · simp at h

namespace Client

/-! ## Turns -/

/-- The turn in which some actions go through the store, with the sessions and the generation that
it leaves, and what it asks for. -/
def turn (c : Client) (presenting : Option Presenting) (watching : Option Watching)
    (generation : Nat) (dispatched : List Action) (effects : List Effect) : Turn :=
  ⟨{ c with store := dispatched.foldl Store.dispatch c.store, presenting, watching, generation },
    dispatched, effects⟩

/-- The turn in which some actions go through the store and the sessions stay. -/
def staying (c : Client) (dispatched : List Action) (effects : List Effect) : Turn :=
  c.turn c.presenting c.watching c.generation dispatched effects

/-- What a client asks for to give its sessions up. -/
def closings (c : Client) : List Effect := c.presenting.elim [] closing

/-- What a client asks for to give up what it watches. -/
def cancels (c : Client) : List Effect := c.watching.elim [] fun w => [.cancel w.generation]

/-- An action goes through the store and asks for nothing else. -/
def takesPlainly (c : Client) : Action → Prop
  | .submit _ | .share _ | .startSharing _ => False
  | .stopSharing => c.presenting = none
  | .stopWatching => c.watching = none
  | .tryStartWatching url => watchingId? url = none
  | _ => True

/-- What a client does upon an action. -/
inductive Acts (c : Client) : Action → Turn → Prop
  | plain {action : Action} (h : c.takesPlainly action) : Acts c action (c.staying [action] [])
  | unshared {action inner : Action} {actions : List Action}
      (h : action.passing? = some (inner, actions)) (hp : c.presenting = none) :
      Acts c action (c.staying actions [])
  | kept {action inner : Action} {actions : List Action} {p : Presenting}
      {messages : List (Message Action)} (h : action.passing? = some (inner, actions))
      (hp : c.presenting = some p) (ho : p.outlet = .pending messages) :
      Acts c action
        (c.turn (some { p with outlet := .pending (messages ++ [.newAction inner]) }) c.watching
          c.generation actions [])
  | sent {action inner : Action} {actions : List Action} {p : Presenting} {line : Nat}
      (h : action.passing? = some (inner, actions)) (hp : c.presenting = some p)
      (ho : p.outlet = .open line) :
      Acts c action (c.staying actions [.send line (.newAction inner)])
  | starts (fresh : Bool) :
      Acts c (.startSharing fresh)
        (c.turn (some ⟨c.generation + 1, none, .pending (if fresh then [] else rebuilding c.present)⟩)
          c.watching (c.generation + 1) (.startSharing fresh :: if fresh then [.reset] else [])
          (c.closings ++ [.present (c.generation + 1)]))
  | stops {p : Presenting} (hp : c.presenting = some p) :
      Acts c .stopSharing
        (c.turn none c.watching c.generation [.stopSharing, .stoppedSharing] (closing p))
  | follows {url id : String} (h : watchingId? url = some id) :
      Acts c (.tryStartWatching url)
        (c.turn c.presenting (some ⟨c.generation + 1, id⟩) (c.generation + 1)
          [.tryStartWatching url, .reset] (c.cancels ++ [.watch (c.generation + 1) id]))
  | leaves {w : Watching} (hw : c.watching = some w) :
      Acts c .stopWatching
        (c.turn c.presenting none c.generation [.stopWatching, .stoppedWatching]
          [.cancel w.generation])

/-- An event is no news to a client: it is of an earlier session, or nothing that is repeated. -/
def isDeafTo (c : Client) : Event → Bool
  | .action _ | .presenterReady .. => false
  | .observerJoined generation => !c.isWatching generation
  | .remote generation action => !(c.isWatching generation && action.isReplayed)
  | .sessionClosed .presenter generation => !c.isPresenting generation
  | .sessionClosed .observer generation => !c.isWatching generation

/-- What a client does upon an event. -/
inductive Turns (c : Client) : Event → Turn → Prop
  | acts {action : Action} {t : Turn} (h : c.Acts action t) : Turns c (.action action) t
  | repeats {action : Action} {t : Turn} {generation : Nat} (hw : c.isWatching generation = true)
      (hr : action.isReplayed = true) (h : c.Acts action t) : Turns c (.remote generation action) t
  | ignores {event : Event} (h : c.isDeafTo event = true) : Turns c event (c.staying [] [])
  | refuses {generation : Nat} (id : String) (line : Nat) (h : c.isPresenting generation = false) :
      Turns c (.presenterReady generation id line) (c.staying [] [.hangUp line])
  | establishes {p : Presenting} (id : String) (line : Nat) (hp : c.presenting = some p) :
      Turns c (.presenterReady p.generation id line)
        (c.turn (some { p with id := some id, outlet := .open line }) c.watching c.generation
          [.startedSharing (c.config.shareUrl id)] (p.outlet.kept.map (.send line)))
  | joins {generation : Nat} (hw : c.isWatching generation = true) :
      Turns c (.observerJoined generation) (c.staying [.startedWatching] [])
  | loses {p : Presenting} (hp : c.presenting = some p) :
      Turns c (.sessionClosed .presenter p.generation)
        (c.turn none c.watching c.generation [.stoppedSharing] (closing p))
  | misses {w : Watching} (hw : c.watching = some w) :
      Turns c (.sessionClosed .observer w.generation)
        (c.turn c.presenting none c.generation [.stoppedWatching] [.cancel w.generation])

/-! ## There are no others -/

theorem isPresenting_iff {c : Client} {generation : Nat} :
    c.isPresenting generation = true ↔ ∃ p, c.presenting = some p ∧ p.generation = generation := by
  unfold isPresenting
  cases c.presenting <;> simp

theorem isWatching_iff {c : Client} {generation : Nat} :
    c.isWatching generation = true ↔ ∃ w, c.watching = some w ∧ w.generation = generation := by
  unfold isWatching
  cases c.watching <;> simp

theorem acts_of_passing (c : Client) {action inner : Action} {actions : List Action}
    (h : action.passing? = some (inner, actions)) : c.Acts action (c.dispatch action) := by
  have hcases := Action.passing?_cases h
  obtain ⟨config, store, presenting, watching, generation⟩ := c
  cases presenting with
  | none =>
    rcases hcases with ⟨text, rfl, rfl, rfl⟩ | ⟨rfl, rfl⟩
    · exact .unshared h rfl
    · exact .unshared h rfl
  | some p =>
    obtain ⟨latest, known, outlet⟩ := p
    cases outlet with
    | pending messages =>
      rcases hcases with ⟨text, rfl, rfl, rfl⟩ | ⟨rfl, rfl⟩
      · exact .kept h rfl rfl
      · exact .kept h rfl rfl
    | «open» line =>
      rcases hcases with ⟨text, rfl, rfl, rfl⟩ | ⟨rfl, rfl⟩
      · exact .sent h rfl rfl
      · exact .sent h rfl rfl

theorem acts_startSharing (c : Client) (fresh : Bool) :
    c.Acts (.startSharing fresh) (c.dispatch (.startSharing fresh)) := by
  have hturn := Acts.starts (c := c) fresh
  obtain ⟨config, store, presenting, watching, generation⟩ := c
  have hrecord : (store.dispatch (.startSharing fresh)).present = store.present :=
    Store.present_dispatch store (by simp) (by simp)
  cases presenting <;> cases fresh <;>
    simpa [turn, closings, dispatch, perform, startSharing, dropPresenting, openPresenting,
      Turn.andThen, record, stay, ask, present, hrecord] using hturn

theorem acts_tryStartWatching (c : Client) (url : String) :
    c.Acts (.tryStartWatching url) (c.dispatch (.tryStartWatching url)) := by
  obtain ⟨config, store, presenting, watching, generation⟩ := c
  cases hid : watchingId? url with
  | none =>
    have hplain : takesPlainly ⟨config, store, presenting, watching, generation⟩
        (.tryStartWatching url) := hid
    have hturn := Acts.plain hplain
    simpa [staying, turn, dispatch, perform, startWatching, hid, Turn.andThen, record, stay]
      using hturn
  | some id =>
    have hturn := Acts.follows (c := ⟨config, store, presenting, watching, generation⟩) hid
    cases watching <;>
      simpa [turn, cancels, dispatch, perform, startWatching, hid, dropWatching, openWatching,
        Turn.andThen, record, stay, ask] using hturn

theorem acts_dispatch (c : Client) (action : Action) : c.Acts action (c.dispatch action) := by
  cases action with
  | submit text => exact acts_of_passing c rfl
  | share inner => exact acts_of_passing c rfl
  | startSharing fresh => exact acts_startSharing c fresh
  | tryStartWatching url => exact acts_tryStartWatching c url
  | stopSharing =>
    obtain ⟨config, store, presenting, watching, generation⟩ := c
    cases presenting with
    | none => exact .plain rfl
    | some p =>
      have hturn := Acts.stops (c := ⟨config, store, some p, watching, generation⟩) rfl
      simpa [turn, dispatch, perform, stopSharing, dropPresenting, Turn.andThen, record, ask]
        using hturn
  | stopWatching =>
    obtain ⟨config, store, presenting, watching, generation⟩ := c
    cases watching with
    | none => exact .plain rfl
    | some w => exact .leaves rfl
  | _ => exact .plain trivial

/-- A client does one of these things upon every event. -/
theorem turns_process (c : Client) (event : Event) : c.Turns event (c.process event) := by
  cases event with
  | action action => exact .acts (acts_dispatch c action)
  | presenterReady generation id line =>
    cases hp : c.presenting with
    | none =>
      have hstale : c.isPresenting generation = false := by simp [isPresenting, hp]
      simp only [process, hp]
      exact .refuses id line hstale
    | some p =>
      by_cases hg : p.generation = generation
      · subst hg
        have hturn := Turns.establishes id line hp
        have hestablish : c.establish p id line =
            c.turn (some { p with id := some id, outlet := .open line }) c.watching c.generation
              [.startedSharing (c.config.shareUrl id)] (p.outlet.kept.map (.send line)) := by
          obtain ⟨latest, known, outlet⟩ := p
          cases outlet <;> simp [establish, turn, Turn.andThen, record, ask, Outlet.kept]
        simp only [process, hp, if_true, hestablish]
        exact hturn
      · have hstale : c.isPresenting generation = false := by simp [isPresenting, hp, hg]
        simp only [process, hp, if_neg hg]
        exact .refuses id line hstale
  | observerJoined generation =>
    by_cases hw : c.isWatching generation = true
    · simp only [process, if_pos hw]
      exact .joins hw
    · simp only [process, if_neg hw]
      exact .ignores (by simp [isDeafTo, hw])
  | remote generation action =>
    by_cases hw : c.isWatching generation = true ∧ action.isReplayed = true
    · simp only [process, if_pos hw]
      exact .repeats hw.1 hw.2 (acts_dispatch c action)
    · simp only [process, if_neg hw]
      rw [← Bool.and_eq_true, Bool.not_eq_true] at hw
      exact .ignores (by simp [isDeafTo, hw])
  | sessionClosed role generation =>
    cases role with
    | presenter =>
      by_cases hp : c.isPresenting generation = true
      · obtain ⟨config, store, presenting, watching, latest⟩ := c
        obtain ⟨p, rfl, rfl⟩ := isPresenting_iff.mp hp
        have hturn := Turns.loses (c := ⟨config, store, some p, watching, latest⟩) rfl
        simpa [process, isPresenting, turn, dropPresenting, Turn.andThen, record, ask] using hturn
      · simp only [process, if_neg hp]
        exact .ignores (by simp [isDeafTo, hp])
    | observer =>
      by_cases hw : c.isWatching generation = true
      · obtain ⟨config, store, presenting, watching, latest⟩ := c
        obtain ⟨w, rfl, rfl⟩ := isWatching_iff.mp hw
        have hturn := Turns.misses (c := ⟨config, store, presenting, some w, latest⟩) rfl
        simpa [process, isWatching, turn, dropWatching, Turn.andThen, record, ask] using hturn
      · simp only [process, if_neg hw]
        exact .ignores (by simp [isDeafTo, hw])

end Client

end TurtleScript
