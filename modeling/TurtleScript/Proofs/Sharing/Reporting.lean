-- What a client reports of its sessions, and what its environment shows of
-- them: a session begins when its task says so, and it is over when the client
-- gives it up.
import TurtleScript.Proofs.Sharing.Chronicle
import TurtleScript.Proofs.Sharing.Ending

namespace TurtleScript

/-! ## Reports -/

namespace Action

/-- The report that sharing or watching has begun. -/
def isStarted (role : Role) : Action → Bool
  | .startedSharing _ => role = .presenter
  | .startedWatching => role = .observer
  | _ => false

/-- The report that sharing or watching is over. -/
def isStopped (role : Role) : Action → Bool
  | .stoppedSharing => role = .presenter
  | .stoppedWatching => role = .observer
  | _ => false

/-- An action that only a client itself is to dispatch. -/
def isReport : Action → Bool
  | .startedSharing _ | .stoppedSharing | .startedWatching | .stoppedWatching => true
  | _ => false

theorem not_isReport_of_isReplayed {action : Action} (h : action.isReplayed = true) :
    action.isReport = false := by
  cases action <;> simp_all [isReplayed, isReport]

end Action

/-- The environment shows that the client is active in a role. -/
def Environment.shows (e : Environment) (role : Role) : Bool :=
  match role with
  | .presenter => e.isSharing
  | .observer => e.isWatching

namespace Event

/-- A user does not make up reports. -/
def isHonest : Event → Bool
  | .action asked => !asked.isReport
  | _ => true

/-- A task reports that the session of a generation is there. -/
def starts (generation : Nat) : Event → Bool
  | .presenterReady latest _ _ | .observerJoined latest => latest = generation
  | _ => false

end Event

namespace Client

variable {c : Client} {event : Event} {action : Action} {t : Turn} {role : Role} {g : Nat}

/-- What a client reports by one turn: nothing, that a session of it has begun, or that one is over
since the event ends it. A session ends without a report only if another one takes its slot. -/
inductive Reports (c : Client) (event : Event) : List Action → Prop
  | nothing (h : ∀ role g, c.holds role g = true → event.ends role g = true →
      event.opens role = true) : Reports c event []
  | started {role : Role} {g : Nat} {report : Action} (hholds : c.holds role g = true)
      (hstarts : event.starts g = true) (hreport : report.isStarted role = true) :
      Reports c event [report]
  | stopped {role : Role} {g : Nat} {report : Action} (hholds : c.holds role g = true)
      (hends : event.ends role g = true) (hreport : report.isStopped role = true)
      (hothers : ∀ role' g', event.ends role' g' = true → role' = role) :
      Reports c event [report]

theorem Acts.reports (h : c.Acts action t) (hhonest : action.isReport = false) :
    c.Reports (.action action) (t.dispatched.filter Action.isReport) := by
  cases h with
  | plain h =>
    have hnone : [action].filter Action.isReport = [] := by simp [hhonest]
    simp only [staying, turn, hnone]
    refine .nothing fun role g hholds hends => ?_
    cases action <;> cases role <;>
      simp_all [takesPlainly, Event.ends, Event.opens, holds, isPresenting, isWatching]
  | unshared h hp | kept h hp ho | sent h hp ho =>
    rcases Action.passing?_cases h with ⟨text, rfl, -, rfl⟩ | ⟨rfl, rfl⟩ <;>
      exact .nothing fun role g hholds hends => by simp [Event.ends, Event.opens] at hends
  | starts fresh =>
    cases fresh <;>
      exact .nothing fun role g hholds hends => by
        simpa [Event.ends, Event.opens] using hends
  | follows h =>
    exact .nothing fun role g hholds hends => by simpa [Event.ends, Event.opens] using hends
  | stops hp =>
    have hholds : c.holds .presenter _ = true := isPresenting_iff.mpr ⟨_, hp, rfl⟩
    refine .stopped hholds (by simp [Event.ends]) (by simp [Action.isStopped]) fun role g h => ?_
    simpa [Event.ends] using h
  | leaves hw =>
    have hholds : c.holds .observer _ = true := isWatching_iff.mpr ⟨_, hw, rfl⟩
    refine .stopped hholds (by simp [Event.ends]) (by simp [Action.isStopped]) fun role g h => ?_
    simpa [Event.ends] using h

theorem Turns.reports (h : c.Turns event t) (hhonest : event.isHonest = true) :
    c.Reports event (t.dispatched.filter Action.isReport) := by
  cases h with
  | acts h => exact h.reports (by simpa [Event.isHonest] using hhonest)
  | repeats hw hr h =>
    have hreports := h.reports (Action.not_isReport_of_isReplayed hr)
    generalize t.dispatched.filter Action.isReport = reports at hreports ⊢
    cases hreports with
    | nothing _ => exact .nothing fun role g hholds hends => by simp [Event.ends, Event.opens] at hends
    | started hholds hstarts hreport => cases hstarts
    | stopped hholds hends hreport hothers =>
      rw [not_ends_of_isReplayed hr] at hends
      cases hends
  | ignores h =>
    refine .nothing fun role g hholds hends => ?_
    cases event with
    | action action => simp [isDeafTo] at h
    | sessionClosed r generation =>
      simp only [Event.ends, Bool.and_eq_true, decide_eq_true_eq] at hends
      obtain ⟨rfl, rfl⟩ := hends
      cases r <;> simp_all [isDeafTo, holds]
    | _ => simp [Event.ends, Event.opens] at hends
  | refuses id line h =>
    exact .nothing fun role g hholds hends => by simp [Event.ends, Event.opens] at hends
  | establishes id line hp =>
    have hholds : c.holds .presenter _ = true := isPresenting_iff.mpr ⟨_, hp, rfl⟩
    exact .started hholds (by simp [Event.starts]) (by simp [Action.isStarted])
  | joins hw =>
    have hholds : c.holds .observer _ = true := hw
    exact .started hholds (by simp [Event.starts]) (by simp [Action.isStarted])
  | loses hp =>
    have hholds : c.holds .presenter _ = true := isPresenting_iff.mpr ⟨_, hp, rfl⟩
    refine .stopped hholds (by simp [Event.ends]) (by simp [Action.isStopped]) fun role g h => ?_
    simp only [Event.ends, Bool.and_eq_true, decide_eq_true_eq] at h
    exact h.1.symm
  | misses hw =>
    have hholds : c.holds .observer _ = true := isWatching_iff.mpr ⟨_, hw, rfl⟩
    refine .stopped hholds (by simp [Event.ends]) (by simp [Action.isStopped]) fun role g h => ?_
    simp only [Event.ends, Bool.and_eq_true, decide_eq_true_eq] at h
    exact h.1.symm

end Client

/-! ## What a session contributes -/

theorem Client.holds_inj {c : Client} {role : Role} {g g' : Nat} (h : c.holds role g = true)
    (h' : c.holds role g' = true) : g = g' := by
  cases role with
  | presenter =>
    obtain ⟨p, hp, rfl⟩ := isPresenting_iff.mp h
    obtain ⟨q, hq, rfl⟩ := isPresenting_iff.mp h'
    rw [hp, Option.some.injEq] at hq
    rw [hq]
  | observer =>
    obtain ⟨v, hv, rfl⟩ := isWatching_iff.mp h
    obtain ⟨w, hw, rfl⟩ := isWatching_iff.mp h'
    rw [hv, Option.some.injEq] at hw
    rw [hw]

namespace Deed

variable {d : Deed} {role : Role} {g : Nat}

def started (d : Deed) (role : Role) (g : Nat) : List Action :=
  if d.client.holds role g then d.turn.dispatched.filter (·.isStarted role) else []

def stopped (d : Deed) (role : Role) (g : Nat) : List Action :=
  if d.client.holds role g then d.turn.dispatched.filter (·.isStopped role) else []

theorem reports (d : Deed) (h : d.event.isHonest = true) :
    d.client.Reports d.event (d.turn.dispatched.filter Action.isReport) :=
  (d.client.turns_process d.event).reports h

theorem filter_isStarted (actions : List Action) (role : Role) :
    actions.filter (·.isStarted role) =
      (actions.filter Action.isReport).filter (·.isStarted role) := by
  rw [List.filter_filter]
  apply List.filter_congr
  intro action _
  cases action <;> simp [Action.isStarted, Action.isReport]

theorem filter_isStopped (actions : List Action) (role : Role) :
    actions.filter (·.isStopped role) =
      (actions.filter Action.isReport).filter (·.isStopped role) := by
  rw [List.filter_filter]
  apply List.filter_congr
  intro action _
  cases action <;> simp [Action.isStopped, Action.isReport]

theorem isStopped_of_isStarted {role' : Role} {action : Action}
    (h : action.isStarted role = true) : action.isStopped role' = false := by
  cases action <;> simp_all [Action.isStarted, Action.isStopped]

theorem isStarted_of_isStopped {role' : Role} {action : Action}
    (h : action.isStopped role = true) : action.isStarted role' = false := by
  cases action <;> simp_all [Action.isStarted, Action.isStopped]

theorem isStarted_inj {role' : Role} {action : Action} (h : action.isStarted role = true)
    (h' : action.isStarted role' = true) : role = role' := by
  cases action <;> simp_all [Action.isStarted]

theorem isStopped_inj {role' : Role} {action : Action} (h : action.isStopped role = true)
    (h' : action.isStopped role' = true) : role = role' := by
  cases action <;> simp_all [Action.isStopped]

/-- The beginning of a session is reported when its task reports it, and then once. -/
theorem length_started_le (h : d.event.isHonest = true) (role : Role) (g : Nat) :
    (d.started role g).length ≤ if d.event.starts g = true then 1 else 0 := by
  unfold started
  split
  · rename_i hholds
    rw [filter_isStarted]
    have hreports := d.reports h
    generalize d.turn.dispatched.filter Action.isReport = reports at hreports
    cases hreports with
    | nothing _ => simp
    | @started role' g' report hholds' hstarts hreport =>
      by_cases hrole : report.isStarted role = true
      · obtain rfl := isStarted_inj hreport hrole
        obtain rfl := Client.holds_inj hholds hholds'
        simp [hrole, hstarts]
      · simp [hrole]
    | stopped hholds' hends hreport hothers => simp [isStarted_of_isStopped hreport]
  · exact Nat.zero_le _

/-- The end of a session is reported only when it ends. -/
theorem length_stopped_le (h : d.event.isHonest = true) (hc : d.client.Coherent) (role : Role)
    (g : Nat) :
    (d.stopped role g).length ≤ 1 ∧
      ((d.stopped role g).length ≠ 0 → ¬ d.client.HasEnded g ∧ d.turn.client.HasEnded g) := by
  unfold stopped
  split
  · rename_i hholds
    have hlive : ¬ d.client.HasEnded g := by
      intro hended
      rw [hended.2 role] at hholds
      cases hholds
    rw [filter_isStopped]
    have hreports := d.reports h
    generalize d.turn.dispatched.filter Action.isReport = reports at hreports
    cases hreports with
    | nothing _ => simp
    | started hholds' hstarts hreport => simp [isStopped_of_isStarted hreport]
    | @stopped role' g' report hholds' hends hreport hothers =>
      by_cases hrole : report.isStopped role = true
      · obtain rfl := isStopped_inj hreport hrole
        obtain rfl := Client.holds_inj hholds hholds'
        have hturn := d.client.turns_process d.event
        simpa [hrole] using ⟨hlive, hturn.hasEnded hc hholds hends⟩
      · simp [hrole]
  · simp

end Deed

/-! ## What the environment shows -/

theorem Store.environment_foldl (actions : List Action) (s : Store) :
    (actions.foldl dispatch s).environment = actions.foldl Environment.apply s.environment := by
  induction actions generalizing s with
  | nil => rfl
  | cons action actions ih => exact ih _

/-- Only reports change the environment. -/
theorem Environment.foldl_isReport (actions : List Action) (e : Environment) :
    actions.foldl apply e = (actions.filter Action.isReport).foldl apply e := by
  induction actions generalizing e with
  | nil => rfl
  | cons action actions ih =>
    by_cases h : action.isReport = true
    · rw [List.filter_cons_of_pos h, List.foldl_cons, List.foldl_cons, ih]
    · have hsame : e.apply action = e := by
        cases action <;> simp_all [Action.isReport, apply]
      rw [List.filter_cons_of_neg h, List.foldl_cons, hsame, ih]

theorem Environment.shows_apply_started {role : Role} {report : Action}
    (h : report.isStarted role = true) (e : Environment) (role' : Role) :
    (e.apply report).shows role' = (decide (role' = role) || e.shows role') := by
  cases report <;> simp_all [Action.isStarted] <;> cases role' <;> simp [apply, shows]

theorem Environment.shows_apply_stopped {role : Role} {report : Action}
    (h : report.isStopped role = true) (e : Environment) (role' : Role) :
    (e.apply report).shows role' = (decide (role' ≠ role) && e.shows role') := by
  cases report <;> simp_all [Action.isStopped] <;> cases role' <;> simp [apply, shows]

namespace Client

variable {c : Client} {event : Event} {t : Turn} {role : Role}

theorem Acts.store_eq {action : Action} (h : c.Acts action t) :
    t.client.store = t.dispatched.foldl Store.dispatch c.store := by
  cases h <;> rfl

theorem Turns.store_eq (h : c.Turns event t) :
    t.client.store = t.dispatched.foldl Store.dispatch c.store := by
  cases h with
  | acts h | repeats _ _ h => exact h.store_eq
  | _ => rfl

/-- A client that shows a role has a session for it. -/
def ShowsRightly (c : Client) : Prop :=
  ∀ role, c.store.environment.shows role = true → ∃ g, c.holds role g = true

theorem showsRightly_new (config : Config) (script : Timeline Script) :
    (new config ⟨script, .idle⟩).ShowsRightly := by
  intro role h
  cases role <;> cases h

theorem Turns.showsRightly (h : c.Turns event t) (hhonest : event.isHonest = true)
    (hc : c.ShowsRightly) : t.client.ShowsRightly := by
  intro role hshows
  rw [h.store_eq, Store.environment_foldl, Environment.foldl_isReport] at hshows
  have hreports := h.reports hhonest
  generalize t.dispatched.filter Action.isReport = reports at hreports hshows
  cases hreports with
  | nothing hquiet =>
    obtain ⟨g, hg⟩ := hc role hshows
    by_cases hends : event.ends role g = true
    · exact ⟨c.generation + 1, (h.holds_iff role _).mpr (Or.inr ⟨hquiet role g hg hends, rfl⟩)⟩
    · exact ⟨g, (h.holds_iff role g).mpr (Or.inl ⟨hg, by simpa using hends⟩)⟩
  | @started role' g' report hholds hstarts hreport =>
    have hgoes : ∀ g, event.ends role g = false := by
      intro g
      cases event <;> first | rfl | cases hstarts
    rw [List.foldl_cons, List.foldl_nil, Environment.shows_apply_started hreport] at hshows
    by_cases hrole : role = role'
    · subst hrole
      exact ⟨g', (h.holds_iff role g').mpr (Or.inl ⟨hholds, hgoes g'⟩)⟩
    · obtain ⟨g, hg⟩ := hc role (by simpa [hrole] using hshows)
      exact ⟨g, (h.holds_iff role g).mpr (Or.inl ⟨hg, hgoes g⟩)⟩
  | @stopped role' g' report hholds hends hreport hothers =>
    rw [List.foldl_cons, List.foldl_nil, Environment.shows_apply_stopped hreport] at hshows
    simp only [Bool.and_eq_true, decide_eq_true_eq] at hshows
    obtain ⟨hrole, hshows⟩ := hshows
    obtain ⟨g, hg⟩ := hc role hshows
    refine ⟨g, (h.holds_iff role g).mpr (Or.inl ⟨hg, ?_⟩)⟩
    rw [← Bool.not_eq_true]
    intro hgoes
    exact hrole (hothers role g hgoes)

end Client

end TurtleScript
