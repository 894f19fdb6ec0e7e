-- What a client writes on the line of a session that it presents: what it was
-- to send is kept until there is a line, written at once from then on, and with
-- the end of the session nothing is written any more.
import TurtleScript.Proofs.Sharing.Calling
import TurtleScript.Proofs.Sharing.Spanning

namespace TurtleScript

/-! ## What is written -/

/-- The message by which a submitted line is passed on. -/
def Action.passed? : Action → Option (Message Action)
  | .submit text => some (.newAction (.submit text))
  | _ => none

/-- The message that an effect puts on a line. -/
def Effect.on? (line : Nat) : Effect → Option (Message Action)
  | .send l message => if l = line then some message else none
  | _ => none

/-- The messages about the lines of script that go through the store. -/
def Turn.submissions (t : Turn) : List (Message Action) := t.dispatched.filterMap Action.passed?

/-- The messages that a turn puts on a line. -/
def Turn.written (t : Turn) (line : Nat) : List (Message Action) :=
  t.effects.filterMap (Effect.on? line)

namespace Client

variable {c : Client} {event : Event} {action : Action} {t : Turn} {p : Presenting} {line : Nat}

theorem written_closing (p : Presenting) (line : Nat) :
    (closing p).filterMap (Effect.on? line) = [] := by
  unfold closing
  cases p.outlet <;> rfl

theorem written_closings (c : Client) (line : Nat) :
    c.closings.filterMap (Effect.on? line) = [] := by
  unfold closings
  cases c.presenting with
  | none => rfl
  | some p => exact written_closing p line

theorem written_cancels (c : Client) (line : Nat) : c.cancels.filterMap (Effect.on? line) = [] := by
  unfold cancels
  cases c.watching <;> rfl

theorem written_sends (messages : List (Message Action)) (l line : Nat) :
    (messages.map (Effect.send l)).filterMap (Effect.on? line) =
      if l = line then messages else [] := by
  rw [List.filterMap_map]
  by_cases hl : l = line
  · rw [if_pos hl]
    have hsome : Effect.on? line ∘ Effect.send l = some := by
      funext message
      simp [Effect.on?, hl]
    rw [hsome, List.filterMap_some]
  · rw [if_neg hl]
    simp [Effect.on?, hl]

/-- A client writes on the line of the session that it presents, or that it has just heard of. -/
def WritesOn (c : Client) (event : Event) (line : Nat) : Prop :=
  ∃ p, c.presenting = some p ∧
    (p.outlet = .open line ∨ ∃ id, event = .presenterReady p.generation id line)

theorem Acts.writesOn (h : c.Acts action t) (hwritten : t.written line ≠ []) :
    ∃ p, c.presenting = some p ∧ p.outlet = .open line := by
  cases h with
  | @sent _ inner actions p l h hp ho =>
    refine ⟨p, hp, ?_⟩
    by_cases hl : l = line
    · rw [ho, hl]
    · simp [Turn.written, staying, turn, Effect.on?, hl] at hwritten
  | starts fresh =>
    simp [Turn.written, turn, List.filterMap_append, written_closings, Effect.on?] at hwritten
  | follows h =>
    simp [Turn.written, turn, List.filterMap_append, written_cancels, Effect.on?] at hwritten
  | stops hp => simp [Turn.written, turn, written_closing] at hwritten
  | leaves hw => simp [Turn.written, turn, Effect.on?] at hwritten
  | _ => simp [Turn.written, staying, turn] at hwritten

theorem Turns.writesOn (h : c.Turns event t) (hwritten : t.written line ≠ []) :
    c.WritesOn event line := by
  cases h with
  | acts h | repeats _ _ h =>
    obtain ⟨p, hp, ho⟩ := h.writesOn hwritten
    exact ⟨p, hp, Or.inl ho⟩
  | @establishes p id l hp =>
    refine ⟨p, hp, Or.inr ⟨id, ?_⟩⟩
    by_cases hl : l = line
    · rw [hl]
    · exact absurd (by rw [Turn.written, turn, written_sends, if_neg hl]) hwritten
  | refuses id l h => simp [Turn.written, staying, turn, Effect.on?] at hwritten
  | loses hp => simp [Turn.written, turn, written_closing] at hwritten
  | misses hw => simp [Turn.written, turn, Effect.on?] at hwritten
  | _ => simp [Turn.written, staying, turn] at hwritten

/-- A client that may write on a line has been able to before, in the same session, or it has just
heard of the line. -/
theorem Acts.opens (h : c.Acts action t) (hp : t.client.presenting = some p)
    (ho : p.outlet = .open line) : ∃ q, c.presenting = some q ∧ q.outlet = .open line ∧
      q.generation = p.generation := by
  cases h with
  | unshared h hnone => exact ⟨p, hp, ho, rfl⟩
  | kept h hsame hkept =>
    simp only [turn, Option.some.injEq] at hp
    rw [← hp] at ho
    cases ho
  | starts fresh =>
    simp only [turn, Option.some.injEq] at hp
    rw [← hp] at ho
    cases ho
  | stops hsame => cases hp
  | _ => exact ⟨p, hp, ho, rfl⟩

theorem Turns.opens (h : c.Turns event t) (hp : t.client.presenting = some p)
    (ho : p.outlet = .open line) :
    (∃ q, c.presenting = some q ∧ q.outlet = .open line ∧ q.generation = p.generation) ∨
      c.isPresenting p.generation = true ∧ ∃ id, event = .presenterReady p.generation id line := by
  cases h with
  | acts h | repeats _ _ h => exact Or.inl (h.opens hp ho)
  | @establishes q id l hsame =>
    simp only [turn, Option.some.injEq] at hp
    rw [← hp] at ho ⊢
    simp only [Outlet.open.injEq] at ho
    exact Or.inr ⟨isPresenting_iff.mpr ⟨q, hsame, rfl⟩, id, by rw [ho]⟩
  | loses hsame => cases hp
  | _ => exact Or.inl ⟨p, hp, ho, rfl⟩

theorem Acts.written_of_ends {role : Role} {g : Nat} (h : c.Acts action t)
    (hends : (Event.action action).ends role g = true) (line : Nat) : t.written line = [] := by
  cases h with
  | plain h => rfl
  | unshared h hp | kept h hp ho => rfl
  | sent h hp ho =>
    rcases Action.passing?_cases h with ⟨text, rfl, -, -⟩ | ⟨rfl, -⟩ <;>
      simp [Event.ends, Event.opens] at hends
  | starts fresh =>
    simp [Turn.written, turn, List.filterMap_append, written_closings, Effect.on?]
  | follows h => simp [Turn.written, turn, List.filterMap_append, written_cancels, Effect.on?]
  | stops hp => exact written_closing _ line
  | leaves hw => rfl

/-- The end of a session comes without a message. -/
theorem Turns.written_of_ends {role : Role} {g : Nat} (h : c.Turns event t)
    (hends : event.ends role g = true) (line : Nat) : t.written line = [] := by
  cases h with
  | acts h => exact h.written_of_ends hends line
  | loses hp => exact written_closing _ line
  | misses hw => rfl
  | ignores h | joins hw | refuses _ _ h => rfl
  | repeats hw hr h => cases hends
  | establishes id l hp => cases hends

/-! ## What a turn passes on -/

/-- What is submitted is kept until there is a line, or it is written on it. -/
inductive Passes (p : Presenting) (t : Turn) : Prop
  | keeps {messages : List (Message Action)} (ho : p.outlet = .pending messages)
      (hnext : t.client.presenting =
        some { p with outlet := .pending (messages ++ t.submissions) })
      (hwritten : ∀ line, t.written line = [])
  | sends {line : Nat} (ho : p.outlet = .open line) (hnext : t.client.presenting = some p)
      (hwritten : t.written line = t.submissions)

theorem passes_nothing (hnext : t.client.presenting = some p) (hsubmissions : t.submissions = [])
    (hwritten : ∀ line, t.written line = []) : Passes p t := by
  cases ho : p.outlet with
  | pending messages =>
    refine .keeps ho ?_ hwritten
    rw [hnext, hsubmissions, List.append_nil, ← ho]
  | «open» line =>
    refine .sends ho hnext ?_
    rw [hwritten, hsubmissions]

theorem Acts.passes (h : c.Acts action t) (hp : c.presenting = some p)
    (hends : (Event.action action).ends .presenter p.generation = false)
    (hshare : ∀ inner, action ≠ .share inner) : Passes p t := by
  cases h with
  | plain h =>
    refine passes_nothing hp ?_ fun line => rfl
    cases action <;> simp_all [takesPlainly, Turn.submissions, staying, turn, Action.passed?]
  | unshared h hnone => simp [hp] at hnone
  | kept h hsame ho =>
    rw [hp, Option.some.injEq] at hsame
    subst hsame
    rcases Action.passing?_cases h with ⟨text, rfl, rfl, rfl⟩ | ⟨rfl, -⟩
    · exact .keeps ho rfl fun line => rfl
    · exact absurd rfl (hshare _)
  | sent h hsame ho =>
    rw [hp, Option.some.injEq] at hsame
    subst hsame
    rcases Action.passing?_cases h with ⟨text, rfl, rfl, rfl⟩ | ⟨rfl, -⟩
    · refine .sends ho hp ?_
      simp [Turn.written, Turn.submissions, staying, turn, Effect.on?, Action.passed?,
        List.filterMap_cons]
    · exact absurd rfl (hshare _)
  | starts fresh => simp [Event.ends, Event.opens] at hends
  | stops hsame => simp [Event.ends] at hends
  | follows h =>
    refine passes_nothing hp rfl fun line => ?_
    simp [Turn.written, turn, List.filterMap_append, written_cancels, Effect.on?]
  | leaves hw => exact passes_nothing hp rfl fun line => rfl

/-- As long as its session goes on a client passes on what it submits, or it hears of its line and
writes all that it has kept. -/
theorem Turns.passes (h : c.Turns event t) (hp : c.presenting = some p)
    (hends : event.ends .presenter p.generation = false)
    (hshare : ∀ inner, event ≠ .action (.share inner)) :
    Passes p t ∧ (∀ id line, event ≠ .presenterReady p.generation id line) ∨
      ∃ id line, event = .presenterReady p.generation id line ∧
        t.client.presenting = some { p with id := some id, outlet := .open line } ∧
        t.written line = p.outlet.kept ∧ t.submissions = [] := by
  cases h with
  | acts h =>
    refine Or.inl ⟨h.passes hp hends fun inner heq => ?_, by simp⟩
    rw [heq] at hshare
    exact hshare inner rfl
  | repeats hw hr h =>
    refine Or.inl ⟨h.passes hp (not_ends_of_isReplayed hr _ _) fun inner heq => ?_, by simp⟩
    rw [heq] at hr
    cases hr
  | ignores h =>
    refine Or.inl ⟨passes_nothing hp rfl fun line => rfl, ?_⟩
    rintro id line rfl
    cases h
  | joins hw => exact Or.inl ⟨passes_nothing hp rfl fun line => rfl, by simp⟩
  | refuses id line h =>
    refine Or.inl ⟨passes_nothing hp rfl fun line => rfl, fun id' line' heq => ?_⟩
    rw [Event.presenterReady.injEq] at heq
    rw [← Bool.not_eq_true, isPresenting_iff] at h
    exact h ⟨p, hp, heq.1.symm⟩
  | establishes id line hsame =>
    rw [hp, Option.some.injEq] at hsame
    subst hsame
    refine Or.inr ⟨id, line, rfl, rfl, ?_, rfl⟩
    rw [Turn.written, turn, written_sends, if_pos rfl]
  | loses hsame =>
    rw [hp, Option.some.injEq] at hsame
    subst hsame
    simp [Event.ends] at hends
  | misses hw => exact Or.inl ⟨passes_nothing hp rfl fun line => rfl, by simp⟩

end Client

namespace Deed

/-- The messages that a client puts on a line by this. -/
def written (d : Deed) (line : Nat) : List (Message Action) := d.turn.written line

/-- The messages about the lines of script that it puts through its store by this. -/
def submissions (d : Deed) : List (Message Action) := d.turn.submissions

end Deed

/-! ## Lines of a run -/

namespace Chronicle

variable {c c' : Chronicle} {s g : Nat} {callers : List Caller}

/-- A client has heard of the line of a session that it presented then. -/
def Hears (c : Chronicle) (s g : Nat) (id : String) (line : Nat) : Prop :=
  ∃ d ∈ c.deedsOf s, d.client.holds .presenter g = true ∧ d.event = .presenterReady g id line

/-- The line on which a client may write, or has written, is one that it has heard of. -/
structure Wired (c : Chronicle) : Prop where
  heard : ∀ s client p line, c.network.client? s = some client → client.presenting = some p →
    p.outlet = .open line → ∃ id, c.Hears s p.generation id line
  wrote : ∀ d ∈ c.deeds, ∀ line, d.written line ≠ [] → ∃ g, d.client.holds .presenter g = true ∧
    ∃ id, c.Hears d.station g id line

theorem Hears.mono {g line : Nat} {id : String} (h : c.Hears s g id line)
    (hmono : ∀ u e, e ∈ c.deedsOf u → e ∈ c'.deedsOf u) : c'.Hears s g id line := by
  obtain ⟨d, hd, hholds, hready⟩ := h
  exact ⟨d, hmono s d hd, hholds, hready⟩

theorem wired_start (ids : SessionIds) (seats : List Seat) : (start ids seats).Wired where
  heard := by
    intro s client p line h hp
    obtain ⟨config, script, rfl⟩ := client?_start h
    cases hp
  wrote := by simp [start]

theorem Wired.step (h : c.Wired) (happening : Happening) : (c.step happening).Wired := by
  have hstill : ∀ c' : Chronicle, c'.deeds = c.deeds →
      (∀ u, c'.network.client? u = c.network.client? u) → c'.Wired := by
    intro c' hdeeds hclients
    have hmono : ∀ u e, e ∈ c.deedsOf u → e ∈ c'.deedsOf u := by
      intro u e he
      simpa only [deedsOf, hdeeds] using he
    constructor
    · intro s client p line hclient hp ho
      obtain ⟨id, hheard⟩ := h.heard s client p line (hclients s ▸ hclient) hp ho
      exact ⟨id, hheard.mono hmono⟩
    · intro d hd line hline
      obtain ⟨g, hg, id, hheard⟩ := h.wrote d (hdeeds ▸ hd) line hline
      exact ⟨g, hg, id, hheard.mono hmono⟩
  cases c.moves_step happening with
  | works t j phase news hj hworks hdeeds hclients => exact hstill _ hdeeds hclients
  | rests hdeeds hclients => exact hstill _ hdeeds hclients
  | turns d hclient hevent hdeeds hclients =>
    have hturn := d.client.turns_process d.event
    have hmono : ∀ u e, e ∈ c.deedsOf u → e ∈ (c.step happening).deedsOf u := by
      intro u e he
      rw [deedsOf_snoc hdeeds]
      exact List.mem_append_left _ he
    have hlast : d ∈ (c.step happening).deedsOf d.station := by
      rw [deedsOf_snoc hdeeds, if_pos rfl]
      exact List.mem_append_right _ (List.mem_singleton.mpr rfl)
    constructor
    · intro s client q line hs hq ho
      rw [hclients] at hs
      split at hs
      · rename_i hsame
        subst hsame
        rw [Option.some.injEq] at hs
        subst hs
        rcases hturn.opens hq ho with ⟨p, hp, hp', hgen⟩ | ⟨hholds, id, hready⟩
        · obtain ⟨id, hheard⟩ := h.heard _ _ p line hclient hp hp'
          exact ⟨id, hgen ▸ hheard.mono hmono⟩
        · exact ⟨id, d, hlast, hholds, hready⟩
      · obtain ⟨id, hheard⟩ := h.heard s client q line hs hq ho
        exact ⟨id, hheard.mono hmono⟩
    · intro e he line hline
      rw [hdeeds, List.mem_append, List.mem_singleton] at he
      rcases he with he | rfl
      · obtain ⟨g, hg, id, hheard⟩ := h.wrote e he line hline
        exact ⟨g, hg, id, hheard.mono hmono⟩
      · obtain ⟨p, hp, ho | ⟨id, hready⟩⟩ := hturn.writesOn hline
        · have hg := Client.isPresenting_iff.mpr ⟨p, hp, rfl⟩
          obtain ⟨id, hheard⟩ := h.heard _ _ p line hclient hp ho
          exact ⟨p.generation, hg, id, hheard.mono hmono⟩
        · have hg := Client.isPresenting_iff.mpr ⟨p, hp, rfl⟩
          exact ⟨p.generation, hg, id, e, hlast, hg, hready⟩

theorem wired_run (ids : SessionIds) (seats : List Seat) (hs : List Happening) :
    ((start ids seats).run hs).Wired :=
  run_induction (wired_start ids seats) (fun _ h hc => hc.step h) hs

/-- A line of which a client has heard is its own. -/
theorem Called.caller_of_hears (hcalled : c.Called callers) {g line : Nat} {id : String}
    (h : c.Hears s g id line) : callers[line]? = some ⟨s, g, .present⟩ := by
  obtain ⟨d, hd, -, hready⟩ := h
  exact hcalled.ready _ _ _ _ (hready ▸ mem_news_of_deed hd (by simp [hready, Event.isNews]))

/-- Who has written on a line that a client later hears of has written for the same session. -/
theorem Wired.writer (hc : c.Wired) (hcalled : c'.Called callers)
    (hmono : ∀ u e, e ∈ c.deedsOf u → e ∈ c'.deedsOf u) {d e : Deed} {id : String} {line : Nat}
    (hd : d ∈ c.deeds) (hwritten : d.written line ≠ []) (he : e ∈ c'.deedsOf s)
    (hready : e.event = .presenterReady g id line) :
    d.station = s ∧ d.client.holds .presenter g = true ∧
      ∃ f ∈ c.deedsOf s, ∃ id, f.event = .presenterReady g id line := by
  obtain ⟨g', hg', id', hheard⟩ := hc.wrote d hd line hwritten
  have hmine := hcalled.ready _ _ _ _
    (hready ▸ mem_news_of_deed he (by simp [hready, Event.isNews]))
  rw [hcalled.caller_of_hears (hheard.mono hmono), Option.some.injEq, Caller.mk.injEq] at hmine
  obtain ⟨hstation, rfl, -⟩ := hmine
  obtain ⟨f, hf, -, hearlier⟩ := hheard
  exact ⟨hstation, hg', f, hstation ▸ hf, id', hearlier⟩

end Chronicle

end TurtleScript
