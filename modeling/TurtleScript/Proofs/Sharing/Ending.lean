-- How the sessions of a client begin and end, and that nothing comes of them
-- afterwards: whatever their tasks still report is ignored, since a generation
-- is never given out again.
import TurtleScript.Proofs.Sharing.Turning

namespace TurtleScript

/-! ## Beginnings and ends -/

/-- The slot for a role holds the session of a generation. -/
def Client.holds (c : Client) (role : Role) (generation : Nat) : Bool :=
  match role with
  | .presenter => c.isPresenting generation
  | .observer => c.isWatching generation

namespace Event

/-- The session that an event is about. -/
def session? : Event → Option Nat
  | .action _ => none
  | .presenterReady generation _ _ | .observerJoined generation | .remote generation _
  | .sessionClosed _ generation => some generation

/-- An event makes a client open a session of a role. -/
def opens (role : Role) : Event → Bool
  | .action (.startSharing _) => role = .presenter
  | .action (.tryStartWatching url) => role = .observer && (watchingId? url).isSome
  | _ => false

/-- An event makes a client give up the session of a role and a generation: its user stops, or
begins another one, or its task reports its end. -/
def ends (role : Role) (generation : Nat) : Event → Bool
  | .action .stopSharing => role = .presenter
  | .action .stopWatching => role = .observer
  | .sessionClosed r latest => r = role && latest = generation
  | event => event.opens role

end Event

namespace Client

variable {c : Client} {event : Event} {action : Action} {t : Turn} {role : Role} {g : Nat}

theorem not_opens_of_isReplayed (h : action.isReplayed = true) (role : Role) :
    (Event.action action).opens role = false := by
  cases action <;> simp_all [Action.isReplayed, Event.opens]

theorem not_ends_of_isReplayed (h : action.isReplayed = true) (role : Role) (g : Nat) :
    (Event.action action).ends role g = false := by
  cases action <;> simp_all [Action.isReplayed, Event.ends, Event.opens]

/-- A session is in its slot after an action if it was there and the action does not end it, or if
it is the one that the action opens. -/
theorem Acts.holds_iff (h : c.Acts action t) (role : Role) (g : Nat) :
    t.client.holds role g = true ↔
      c.holds role g = true ∧ (Event.action action).ends role g = false ∨
        (Event.action action).opens role = true ∧ c.generation + 1 = g := by
  cases h with
  | plain h =>
    cases action <;> cases role <;>
      simp_all [takesPlainly, staying, turn, holds, isPresenting, isWatching, Event.ends, Event.opens]
  | unshared h hp =>
    rcases Action.passing?_cases h with ⟨text, rfl, -, -⟩ | ⟨rfl, -⟩ <;> cases role <;>
      simp [staying, turn, holds, isPresenting, isWatching, Event.ends, Event.opens]
  | kept h hp ho =>
    rcases Action.passing?_cases h with ⟨text, rfl, -, -⟩ | ⟨rfl, -⟩ <;> cases role <;>
      simp [turn, holds, isPresenting, isWatching, hp, Event.ends, Event.opens]
  | sent h hp ho =>
    rcases Action.passing?_cases h with ⟨text, rfl, -, -⟩ | ⟨rfl, -⟩ <;> cases role <;>
      simp [staying, turn, holds, isPresenting, isWatching, Event.ends, Event.opens]
  | starts fresh =>
    cases role <;> simp [turn, holds, isPresenting, isWatching, Event.ends, Event.opens]
  | stops hp =>
    cases role <;> simp [turn, holds, isPresenting, isWatching, Event.ends, Event.opens]
  | follows h =>
    cases role <;>
      simp [turn, holds, isPresenting, isWatching, Event.ends, Event.opens, h]
  | leaves hw =>
    cases role <;> simp [turn, holds, isPresenting, isWatching, Event.ends, Event.opens]

theorem Turns.holds_iff (h : c.Turns event t) (role : Role) (g : Nat) :
    t.client.holds role g = true ↔
      c.holds role g = true ∧ event.ends role g = false ∨
        event.opens role = true ∧ c.generation + 1 = g := by
  cases h with
  | acts h => exact h.holds_iff role g
  | repeats hw hr h =>
    rw [h.holds_iff role g, not_ends_of_isReplayed hr, not_opens_of_isReplayed hr]
    simp [Event.ends, Event.opens]
  | ignores h =>
    cases event with
    | action action => simp [isDeafTo] at h
    | presenterReady generation id line => simp [isDeafTo] at h
    | sessionClosed r generation =>
      have hstale : c.holds r generation = false := by
        cases r <;> simpa [isDeafTo, holds] using h
      have hsame : (c.staying [] []).client.holds role g = c.holds role g := rfl
      have hopens : (Event.sessionClosed r generation).opens role = false := rfl
      rw [hsame, hopens]
      constructor
      · intro hg
        refine Or.inl ⟨hg, ?_⟩
        rw [← Bool.not_eq_true]
        intro hends
        simp only [Event.ends, Bool.and_eq_true, decide_eq_true_eq] at hends
        obtain ⟨rfl, rfl⟩ := hends
        rw [hstale] at hg
        cases hg
      · rintro (⟨hg, -⟩ | ⟨hfalse, -⟩)
        · exact hg
        · cases hfalse
    | _ => simp [staying, turn, holds, isPresenting, isWatching, Event.ends, Event.opens]
  | refuses id line h =>
    simp [staying, turn, holds, isPresenting, isWatching, Event.ends, Event.opens]
  | establishes id line hp =>
    cases role <;> simp [turn, holds, isPresenting, isWatching, hp, Event.ends, Event.opens]
  | joins hw =>
    simp [staying, turn, holds, isPresenting, isWatching, Event.ends, Event.opens]
  | loses hp =>
    cases role <;> simp [turn, holds, isPresenting, isWatching, hp, Event.ends, Event.opens]
  | misses hw =>
    cases role <;> simp [turn, holds, isPresenting, isWatching, hw, Event.ends, Event.opens]

/-- A client gives out a further generation exactly when it opens a session. -/
theorem Acts.generation_eq (h : c.Acts action t) :
    t.client.generation = if (Event.action action).opens .presenter = true ∨
      (Event.action action).opens .observer = true then c.generation + 1 else c.generation := by
  cases h with
  | plain h =>
    cases action <;> simp_all [takesPlainly, staying, turn, Event.opens]
  | unshared h hp | kept h hp ho | sent h hp ho =>
    rcases Action.passing?_cases h with ⟨text, rfl, -, -⟩ | ⟨rfl, -⟩ <;>
      simp [staying, turn, Event.opens]
  | follows h => simp [turn, Event.opens, h]
  | starts fresh => simp [turn, Event.opens]
  | stops hp => simp [turn, Event.opens]
  | leaves hw => simp [turn, Event.opens]

theorem Turns.generation_eq (h : c.Turns event t) :
    t.client.generation =
      if event.opens .presenter = true ∨ event.opens .observer = true then c.generation + 1
      else c.generation := by
  cases h with
  | acts h => exact h.generation_eq
  | repeats hw hr h =>
    rw [h.generation_eq, not_opens_of_isReplayed hr, not_opens_of_isReplayed hr]
    simp [Event.opens]
  | ignores h =>
    cases event with
    | action action => simp [isDeafTo] at h
    | _ => rfl
  | _ => rfl

theorem Turns.generation_le (h : c.Turns event t) : c.generation ≤ t.client.generation := by
  rw [h.generation_eq]
  split <;> omega

/-- A session has the generation of no later one, and no other role. -/
structure Coherent (c : Client) : Prop where
  known : ∀ role g, c.holds role g = true → g ≤ c.generation
  apart : ∀ role role' g, c.holds role g = true → c.holds role' g = true → role = role'

theorem coherent_new (config : Config) (store : Store) : (new config store).Coherent := by
  constructor
  · intro role g h
    cases role <;> simp [holds, isPresenting, isWatching, new] at h
  · intro role role' g h
    cases role <;> simp [holds, isPresenting, isWatching, new] at h

theorem Turns.coherent (h : c.Turns event t) (hc : c.Coherent) : t.client.Coherent := by
  have hnew : ∀ role g, event.opens role = true ∧ c.generation + 1 = g →
      t.client.generation = g := by
    rintro role g ⟨hopens, rfl⟩
    rw [h.generation_eq]
    cases role <;> simp [hopens]
  have hle := h.generation_le
  constructor
  · intro role g hg
    rcases (h.holds_iff role g).mp hg with ⟨hold, -⟩ | hopens
    · have := hc.known role g hold
      omega
    · exact Nat.le_of_eq (hnew role g hopens).symm
  · intro role role' g hg hg'
    rcases (h.holds_iff role g).mp hg with ⟨hold, -⟩ | ⟨hopens, hgen⟩ <;>
      rcases (h.holds_iff role' g).mp hg' with ⟨hold', -⟩ | ⟨hopens', hgen'⟩
    · exact hc.apart role role' g hold hold'
    · have := hc.known role g hold
      omega
    · have := hc.known role' g hold'
      omega
    · cases event with
      | action action =>
        cases action <;> cases role <;> cases role' <;> simp_all [Event.opens]
      | _ => cases hopens

/-- A session was given out and has no slot any more. -/
def HasEnded (c : Client) (g : Nat) : Prop := g ≤ c.generation ∧ ∀ role, c.holds role g = false

/-- What has ended has ended for good. -/
theorem HasEnded.turns (hg : c.HasEnded g) (h : c.Turns event t) : t.client.HasEnded g := by
  refine ⟨Nat.le_trans hg.1 h.generation_le, fun role => ?_⟩
  rw [← Bool.not_eq_true]
  intro hholds
  rcases (h.holds_iff role g).mp hholds with ⟨hold, -⟩ | ⟨-, hgen⟩
  · rw [hg.2 role] at hold
    cases hold
  · have := hg.1
    omega

/-- An event that ends a session does so. -/
theorem Turns.hasEnded (h : c.Turns event t) (hc : c.Coherent) (hold : c.holds role g = true)
    (hends : event.ends role g = true) : t.client.HasEnded g := by
  have hknown := hc.known role g hold
  refine ⟨Nat.le_trans hknown h.generation_le, fun role' => ?_⟩
  rw [← Bool.not_eq_true]
  intro hholds
  rcases (h.holds_iff role' g).mp hholds with ⟨hold', hgoes⟩ | ⟨-, hgen⟩
  · rw [hc.apart role' role g hold' hold, hends] at hgoes
    cases hgoes
  · omega

/-- Whatever is still heard of a session that has ended, nothing comes of it, but that a line which
is there too late is given up. -/
theorem HasEnded.ignores (hg : c.HasEnded g) (he : event.session? = some g) :
    (c.process event).client = c ∧ (c.process event).dispatched = [] ∧
      ∀ effect ∈ (c.process event).effects, ∃ line, effect = .hangUp line := by
  have hp : c.isPresenting g = false := hg.2 .presenter
  have hw : c.isWatching g = false := hg.2 .observer
  have hturn := c.turns_process event
  generalize c.process event = t at hturn ⊢
  cases hturn with
  | acts h => simp [Event.session?] at he
  | ignores h => exact ⟨rfl, rfl, by simp [staying, turn]⟩
  | refuses id line h => exact ⟨rfl, rfl, by simp [staying, turn]⟩
  | repeats hw' hr h | joins hw' =>
    simp only [Event.session?, Option.some.injEq] at he
    rw [he, hw] at hw'
    cases hw'
  | establishes id line hp' | loses hp' =>
    simp only [Event.session?, Option.some.injEq] at he
    rw [← Bool.not_eq_true, isPresenting_iff] at hp
    exact absurd ⟨_, hp', he⟩ hp
  | misses hw' =>
    simp only [Event.session?, Option.some.injEq] at he
    rw [← Bool.not_eq_true, isWatching_iff] at hw
    exact absurd ⟨_, hw', he⟩ hw

end Client

end TurtleScript
