-- What a presenter can do to those who watch. They repeat what it does with its
-- script in their own stores, and pass its lines on if they present a session
-- themselves. Whatever else it sends leaves them as they are, and so does all
-- that comes from one whom they watch no more.
import Mathlib.Data.List.Induction
import TurtleScript.Proofs.Sharing.Reporting

namespace TurtleScript

/-! ## Actions that are repeated -/

namespace Action

/-- A line of script. -/
def isLine : Action → Bool
  | .submit _ => true
  | _ => false

/-- All that goes through the store of a client that repeats an action: a line is passed on before
it is submitted. -/
def steps : Action → List Action
  | .submit text => [.share (.submit text), .submit text]
  | action => [action]

end Action

/-- Passing an action on is no concern of the store. -/
theorem Store.dispatch_share (s : Store) (inner : Action) : s.dispatch (.share inner) = s := by
  have hscript : s.script.edit Script.nextId s.script.present = s.script := if_pos rfl
  exact congrArg (fun script => (⟨script, s.environment⟩ : Store)) hscript

/-- What is repeated does not change what is shown about sharing. -/
theorem Store.environment_foldl_of_isReplayed {actions : List Action}
    (h : ∀ action ∈ actions, action.isReplayed = true) (s : Store) :
    (actions.foldl dispatch s).environment = s.environment := by
  have hnone : actions.filter Action.isReport = [] := by
    rw [List.filter_eq_nil_iff]
    exact fun action hmem => by simp [Action.not_isReport_of_isReplayed (h action hmem)]
  rw [environment_foldl, Environment.foldl_isReport, hnone]
  rfl

/-! ## Lines that are passed on -/

namespace Presenting

/-- The session after some actions were passed on: they are kept if there is no line yet. -/
def passing (p : Presenting) (inner : List Action) : Presenting :=
  match p.outlet with
  | .pending messages => { p with outlet := .pending (messages ++ inner.map .newAction) }
  | .open _ => p

/-- What is sent if some actions are passed on. -/
def sends (p : Presenting) (inner : List Action) : List Effect :=
  match p.outlet with
  | .pending _ => []
  | .open line => inner.map fun action => .send line (.newAction action)

variable (p : Presenting) (xs ys : List Action)

theorem passing_nil : p.passing [] = p := by
  obtain ⟨generation, id, outlet⟩ := p
  cases outlet <;> simp [passing]

theorem sends_nil : p.sends [] = [] := by
  unfold sends
  split <;> rfl

theorem passing_passing : (p.passing xs).passing ys = p.passing (xs ++ ys) := by
  obtain ⟨generation, id, outlet⟩ := p
  cases outlet <;> simp [passing]

theorem sends_passing : p.sends xs ++ (p.passing xs).sends ys = p.sends (xs ++ ys) := by
  obtain ⟨generation, id, outlet⟩ := p
  cases outlet <;> simp [passing, sends]

/-- The session stays the same one. -/
theorem generation_passing : (p.passing xs).generation = p.generation := by
  unfold passing
  split <;> rfl

theorem id_passing : (p.passing xs).id = p.id := by
  unfold passing
  split <;> rfl

end Presenting

/-! ## Turns that repeat -/

/-- A turn in which a client repeats some actions and does nothing else. -/
structure Turn.Repeats (t : Turn) (c : Client) (actions : List Action) : Prop where
  config : t.client.config = c.config
  store : t.client.store = actions.foldl Store.dispatch c.store
  presenting : t.client.presenting = c.presenting.map (·.passing (actions.filter Action.isLine))
  watching : t.client.watching = c.watching
  generation : t.client.generation = c.generation
  dispatched : t.dispatched = actions.flatMap Action.steps
  effects : t.effects = c.presenting.elim [] (·.sends (actions.filter Action.isLine))

namespace Turn.Repeats

variable {c : Client} {t u : Turn} {xs ys : List Action}

theorem stay (c : Client) : c.stay.Repeats c [] where
  config := rfl
  store := rfl
  presenting := by
    cases hp : c.presenting with
    | none => exact hp
    | some p => exact hp.trans (congrArg some p.passing_nil.symm)
  watching := rfl
  generation := rfl
  dispatched := rfl
  effects := by
    cases c.presenting with
    | none => rfl
    | some p => exact p.sends_nil.symm

theorem andThen {next : Client → Turn} (h : t.Repeats c xs)
    (hnext : (next t.client).Repeats t.client ys) :
    (t.andThen next).Repeats c (xs ++ ys) where
  config := hnext.config.trans h.config
  store := by rw [List.foldl_append, ← h.store]; exact hnext.store
  presenting := by
    have hlater := hnext.presenting
    rw [h.presenting, Option.map_map] at hlater
    refine hlater.trans ?_
    rw [List.filter_append]
    exact Option.map_congr fun p _ => p.passing_passing _ _
  watching := hnext.watching.trans h.watching
  generation := hnext.generation.trans h.generation
  dispatched := by
    rw [List.flatMap_append, ← h.dispatched, ← hnext.dispatched]
    rfl
  effects := by
    have hlater := hnext.effects
    rw [h.presenting] at hlater
    have hboth : (t.andThen next).effects = t.effects ++ (next t.client).effects := rfl
    rw [hboth, h.effects, hlater, List.filter_append]
    cases c.presenting with
    | none => rfl
    | some p => exact p.sends_passing _ _

end Turn.Repeats

/-! ## Events from outside -/

namespace Client

/-- An action from outside is repeated: it is of the session that is watched, and about the
script. -/
def follows (c : Client) (remote : Nat × Action) : Bool :=
  c.isWatching remote.1 && remote.2.isReplayed

/-- The actions from outside that are repeated. -/
def repeated (c : Client) (remotes : List (Nat × Action)) : List Action :=
  (remotes.filter c.follows).map (·.2)

/-- Deals with actions from outside, each with the generation of the session it comes from. -/
def hearAll (c : Client) (remotes : List (Nat × Action)) : Turn :=
  remotes.foldl (fun t remote => t.andThen (·.process (.remote remote.1 remote.2))) c.stay

/-- The generation and the id of the session that is presented. -/
def identity? (c : Client) : Option (Nat × Option String) :=
  c.presenting.map fun p => (p.generation, p.id)

variable {c : Client} {t : Turn} {action : Action}

/-- An action that is no line goes through the store and that is all. -/
theorem repeats_staying (c : Client) (h : action.isLine = false) :
    (c.staying [action] []).Repeats c [action] := by
  obtain ⟨-, -, hpresenting, -, -, -, heffects⟩ := Turn.Repeats.stay c
  have hnone : [action].filter Action.isLine = [] := by simp [h]
  have hsteps : [action].flatMap Action.steps = [action] := by
    cases action with
    | submit text => cases h
    | _ => rfl
  refine ⟨rfl, rfl, ?_, rfl, rfl, hsteps.symm, ?_⟩
  · rw [hnone]
    exact hpresenting
  · rw [hnone]
    exact heffects

/-- A line is passed on and submitted. -/
theorem repeats_turn (c : Client) (text : String) {presenting : Option Presenting}
    {effects : List Effect} (hpresenting : presenting = c.presenting.map (·.passing [.submit text]))
    (heffects : effects = c.presenting.elim [] (·.sends [.submit text])) :
    (c.turn presenting c.watching c.generation [.share (.submit text), .submit text] effects).Repeats c
      [.submit text] where
  config := rfl
  store := congrArg (·.dispatch (.submit text)) (c.store.dispatch_share _)
  presenting := hpresenting
  watching := rfl
  generation := rfl
  dispatched := rfl
  effects := heffects

theorem Acts.repeats (h : c.Acts action t) (hr : action.isReplayed = true) :
    t.Repeats c [action] := by
  cases h with
  | plain h =>
    apply repeats_staying
    cases action with
    | submit text => cases h
    | _ => rfl
  | unshared h hp =>
    rcases Action.passing?_cases h with ⟨text, rfl, -, rfl⟩ | ⟨rfl, -⟩
    · exact repeats_turn c text (by rw [hp]; rfl) (by rw [hp]; rfl)
    · cases hr
  | kept h hp ho =>
    rcases Action.passing?_cases h with ⟨text, rfl, rfl, rfl⟩ | ⟨rfl, -⟩
    · refine repeats_turn c text ?_ ?_
      · simp [hp, Presenting.passing, ho]
      · simp [hp, Presenting.sends, ho]
    · cases hr
  | sent h hp ho =>
    rcases Action.passing?_cases h with ⟨text, rfl, rfl, rfl⟩ | ⟨rfl, -⟩
    · refine repeats_turn c text ?_ ?_
      · simp [hp, Presenting.passing, ho]
      · simp [hp, Presenting.sends, ho]
    · cases hr
  | _ => cases hr

/-! ## One event -/

theorem process_remote_of_follows {remote : Nat × Action} (h : c.follows remote = true) :
    c.process (.remote remote.1 remote.2) = c.dispatch remote.2 :=
  if_pos (by simpa [follows] using h)

theorem process_remote_of_not_follows {remote : Nat × Action} (h : c.follows remote = false) :
    c.process (.remote remote.1 remote.2) = c.stay :=
  if_neg (by simpa [follows] using h)

/-- An event from outside is repeated, or nothing comes of it. -/
theorem repeats_process (c : Client) (remote : Nat × Action) :
    (c.process (.remote remote.1 remote.2)).Repeats c (c.repeated [remote]) := by
  cases h : c.follows remote with
  | true =>
    have hr : remote.2.isReplayed = true := (Bool.and_eq_true_iff.mp h).2
    have hone : c.repeated [remote] = [remote.2] := by simp [repeated, h]
    rw [process_remote_of_follows h, hone]
    exact (acts_dispatch c remote.2).repeats hr
  | false =>
    have hnone : c.repeated [remote] = [] := by simp [repeated, h]
    rw [process_remote_of_not_follows h, hnone]
    exact Turn.Repeats.stay c

/-! ## All events -/

/-- What is repeated is decided by the session that is watched. -/
theorem repeated_congr {d : Client} (h : d.watching = c.watching) (remotes : List (Nat × Action)) :
    d.repeated remotes = c.repeated remotes := by
  have hfollows : d.follows = c.follows := by
    funext remote
    unfold follows isWatching
    rw [h]
  rw [repeated, hfollows]
  rfl

theorem hearAll_append (c : Client) (remotes : List (Nat × Action)) (remote : Nat × Action) :
    c.hearAll (remotes ++ [remote]) =
      (c.hearAll remotes).andThen (·.process (.remote remote.1 remote.2)) := by
  unfold hearAll
  rw [List.foldl_append]
  rfl

theorem repeats_hearAll (c : Client) (remotes : List (Nat × Action)) :
    (c.hearAll remotes).Repeats c (c.repeated remotes) := by
  induction remotes using List.reverseRecOn with
  | nil => exact Turn.Repeats.stay c
  | append_singleton remotes remote ih =>
    have hlast := repeats_process (c.hearAll remotes).client remote
    rw [repeated_congr ih.watching] at hlast
    have hsplit : c.repeated (remotes ++ [remote]) = c.repeated remotes ++ c.repeated [remote] := by
      simp [repeated]
    rw [hearAll_append, hsplit]
    exact ih.andThen hlast

theorem isReplayed_of_mem_repeated {remotes : List (Nat × Action)} (h : action ∈ c.repeated remotes) :
    action.isReplayed = true := by
  unfold repeated at h
  obtain ⟨remote, hmem, rfl⟩ := List.mem_map.mp h
  exact (Bool.and_eq_true_iff.mp (List.mem_filter.mp hmem).2).2

end Client

/-! ## What repeating leaves alone -/

theorem Presenting.exists_of_mem_sends {p : Presenting} {inner : List Action} {effect : Effect}
    (h : effect ∈ p.sends inner) :
    ∃ line, p.outlet = .open line ∧ ∃ action ∈ inner, effect = .send line (.newAction action) := by
  unfold sends at h
  split at h
  · cases h
  · next line ho =>
    obtain ⟨action, hmem, rfl⟩ := List.mem_map.mp h
    exact ⟨line, ho, action, hmem, rfl⟩

/-- A turn that changes nothing of a client but its script, and asks for nothing but to pass lines of
script on over the line that there is. -/
structure Turn.IsConfined (t : Turn) (c : Client) : Prop where
  config : t.client.config = c.config
  environment : t.client.store.environment = c.store.environment
  watching : t.client.watching = c.watching
  identity : t.client.identity? = c.identity?
  generation : t.client.generation = c.generation
  effects : ∀ effect ∈ t.effects, ∃ p line text, c.presenting = some p ∧ p.outlet = .open line ∧
    effect = .send line (.newAction (.submit text))

theorem Turn.Repeats.isConfined {c : Client} {t : Turn} {actions : List Action}
    (h : t.Repeats c actions) (hr : ∀ action ∈ actions, action.isReplayed = true) :
    t.IsConfined c where
  config := h.config
  environment := by rw [h.store, Store.environment_foldl_of_isReplayed hr]
  watching := h.watching
  identity := by
    unfold Client.identity?
    rw [h.presenting, Option.map_map]
    exact Option.map_congr fun p _ => Prod.ext (p.generation_passing _) (p.id_passing _)
  generation := h.generation
  effects := by
    intro effect heffect
    rw [h.effects] at heffect
    cases hp : c.presenting with
    | none =>
      rw [hp] at heffect
      cases heffect
    | some p =>
      rw [hp] at heffect
      obtain ⟨line, ho, action, hmem, rfl⟩ := Presenting.exists_of_mem_sends heffect
      cases action with
      | submit text => exact ⟨p, line, text, rfl, ho, rfl⟩
      | _ => cases (List.mem_filter.mp hmem).2

/-! ## The law of repeating -/

/-- Whatever comes from outside, and however much of it: the actions about the script that come from
the session that is watched are repeated in order, and that is all. So the sessions, the generation and
what is shown stay as they are, no session is opened or given up, and the script changes only as these
actions change it in the store. Of any other action, or any other session, nothing comes. -/
theorem remote_events_touch_only_the_script (c : Client) (remotes : List (Nat × Action)) :
    (c.hearAll remotes).IsConfined c ∧ (c.hearAll remotes).Repeats c (c.repeated remotes) ∧
      (∀ action ∈ c.repeated remotes, action.isReplayed = true) ∧
      ∀ remote : Nat × Action, c.follows remote = false →
        c.process (.remote remote.1 remote.2) = c.stay := by
  have hrepeats := c.repeats_hearAll remotes
  have hreplayed : ∀ action ∈ c.repeated remotes, action.isReplayed = true :=
    fun action hmem => Client.isReplayed_of_mem_repeated hmem
  exact ⟨hrepeats.isConfined hreplayed, hrepeats, hreplayed,
    fun remote h => Client.process_remote_of_not_follows h⟩

/-- A client that presents a session and watches another one. -/
def amidst : Client :=
  ⟨.default, .empty, some ⟨1, some "ab-12", .open 5⟩, some ⟨2, "cd-34"⟩, 2⟩

/-- A presenter that tries to do more than draw, and a line of an earlier session. -/
def intrusions : List (Nat × Action) :=
  [(2, .startSharing true), (2, .submit "fd 1\n"), (1, .submit "fd 2\n"), (2, .stopWatching),
    (2, .share (.share (.submit "fd 3\n"))), (2, .tryStartWatching "ef-56"), (2, .stopSharing),
    (2, .startedSharing "http://host/"), (2, .undo)]

theorem intrusions_touch_only_the_script :
    amidst.repeated intrusions = [.submit "fd 1\n", .undo] ∧
      (amidst.hearAll intrusions).client.watching = some ⟨2, "cd-34"⟩ ∧
      (amidst.hearAll intrusions).client.store.environment = .idle ∧
      (amidst.hearAll intrusions).effects = [.send 5 (.newAction (.submit "fd 1\n"))] ∧
      amidst.follows (2, .stopWatching) = false ∧
      amidst.process (.remote 2 .stopWatching) = amidst.stay := by
  have hrepeated : amidst.repeated intrusions = [.submit "fd 1\n", .undo] := rfl
  have hdeaf : amidst.follows (2, .stopWatching) = false := rfl
  obtain ⟨hconfined, hrepeats, -, hignores⟩ := remote_events_touch_only_the_script amidst intrusions
  have heffects := hrepeats.effects
  rw [hrepeated] at heffects
  exact ⟨hrepeated, hconfined.watching, hconfined.environment, heffects, hdeaf, hignores _ hdeaf⟩

end TurtleScript
