-- Who called on which line. Each line has one task at its near end, and the
-- lines of watchers are found only in the few states that an attendant of a
-- watcher can bring about; whatever one task does spares all other tasks.
import TurtleScript.Proofs.Sharing.Working

namespace TurtleScript

/-! ## Lines of watchers -/

/-- The line of a phase. -/
def Phase.line? : Phase → Option Nat
  | .awaiting line | .listening line => some line
  | .calling | .finished => none

/-- A line whose caller watches or asks for it. -/
inductive Line.IsWatchers (line : Line) : Prop
  | asks (id : String) : line.attendant = .greeting →
      line.link.up.waiting = [Relay.watchText id] → line.IsWatchers
  | watches : line.attendant = .watching → line.link.up.waiting = [] → line.IsWatchers
  | left : line.attendant = .gone → line.IsWatchers

/-- What time can do to the line of a watcher. -/
structure Line.Ages (a b : Line) : Prop where
  isWatchers : a.IsWatchers → b.IsWatchers
  greeted : a.attendant ≠ .greeting → b.attendant ≠ .greeting

theorem Line.ages_self (a : Line) : a.Ages a := ⟨id, id⟩

/-- Nothing but the messages on their way up and the attendant matters. -/
theorem Line.ages_of_up {a b : Line} (hattendant : b.attendant = a.attendant)
    (hup : b.link.up.waiting = a.link.up.waiting) : a.Ages b := by
  refine ⟨?_, ?_⟩
  · intro h
    cases h with
    | asks id hgreeting hwaiting => exact .asks id (hattendant.trans hgreeting) (hup.trans hwaiting)
    | watches hwatching hwaiting => exact .watches (hattendant.trans hwatching) (hup.trans hwaiting)
    | left hgone => exact .left (hattendant.trans hgone)
  · intro h
    rwa [hattendant]

/-- The generation of the session that an event tells an observer about. -/
def Event.watched? : Event → Option Nat
  | .observerJoined generation | .remote generation _ | .sessionClosed .observer generation =>
    some generation
  | _ => none

/-! ## Exchanges -/

/-- A relay and tasks, with the task that called on each line. -/
structure Exchange where
  relay : Relay
  tasks : List Task
  callers : List Nat

namespace Exchange

/-- The network of two over an exchange. -/
def network (x : Exchange) (p : Client) (pin : List Event) (o : Client) (oin : List Event) :
    Network := .pair x.relay p pin o oin x.tasks

def onLink (x : Exchange) (l : Nat) (f : Link → Link) : Exchange :=
  { x with relay := x.relay.onLink l f }

def advance (x : Exchange) (t : Nat) (phase : Phase) : Exchange :=
  { x with tasks := advanced x.tasks t phase }

def call (x : Exchange) (t : Nat) (text : String) : Exchange :=
  { x with relay := x.relay.called text, callers := x.callers ++ [t] }

/-- The tasks of a station's session are given up. -/
def giveUp (x : Exchange) (s generation : Nat) : Exchange :=
  { x with tasks := Network.giveUpAll x.tasks s generation }

/-- The task of a watcher asks for a session, and listens on its line from then on. -/
def ask (x : Exchange) (t : Nat) (id : String) : Exchange :=
  (x.call t (Relay.watchText id)).advance t (.listening x.relay.lines.length)

/-- The task of a watcher goes, and leaves its line. -/
def depart (x : Exchange) (t l : Nat) : Exchange :=
  (x.onLink l (·.leave .near)).advance t .finished

/-- The observer has a new task. -/
def enlist (x : Exchange) (generation : Nat) (id : String) : Exchange :=
  { x with tasks := x.tasks ++ [watcherTask generation id .calling false] }

/-- Every line belongs to the task that called on it, and those who are told of a session are
watchers that have been greeted. -/
structure Orderly (x : Exchange) (latest : Nat) : Prop where
  lines : x.callers.length = x.relay.lines.length
  tasks : x.tasks.length = latest + 1
  own : ∀ (t : Nat) (task : Task) (l : Nat), x.tasks[t]? = some task →
    task.phase.line? = some l → x.callers[l]? = some t
  watchers : ∀ (t : Nat) (task : Task), x.tasks[t + 1]? = some task → ∃ id phase cancelled,
    task = watcherTask (t + 1) id phase cancelled ∧ ∀ l, phase ≠ .awaiting l
  lined : ∀ (l t : Nat) (line : Line), x.callers[l]? = some (t + 1) →
    x.relay.lines[l]? = some line → line.IsWatchers
  audience : ∀ i s, (i, s) ∈ x.relay.sessions → s.watchers.Nodup ∧ ∀ m ∈ s.watchers,
    ∃ t line, x.callers[m]? = some (t + 1) ∧ x.relay.lines[m]? = some line ∧
      line.attendant ≠ .greeting

/-- One task is left alone, and so are the lines on which it called. -/
structure Spares (x y : Exchange) (t : Nat) : Prop where
  callers : ∀ l : Nat, y.callers[l]? = some t ↔ x.callers[l]? = some t
  lines : ∀ l : Nat, x.callers[l]? = some t → y.relay.lines[l]? = x.relay.lines[l]?
  task : y.tasks[t]? = x.tasks[t]?

section Steps

variable {x y : Exchange} {latest t l : Nat} {phase : Phase}

theorem Spares.trans {z : Exchange} (hy : x.Spares y t) (hz : y.Spares z t) : x.Spares z t where
  callers := fun l => (hz.callers l).trans (hy.callers l)
  lines := fun l hl => (hz.lines l ((hy.callers l).mpr hl)).trans (hy.lines l hl)
  task := hz.task.trans hy.task

/-! ## Changes of lines -/

theorem Orderly.exists_line (h : x.Orderly latest) (hl : x.callers[l]? = some t) :
    ∃ line, x.relay.lines[l]? = some line := by
  have hlt : l < x.callers.length := by
    rw [List.getElem?_eq_some_iff] at hl
    exact hl.1
  rw [h.lines] at hlt
  exact ⟨_, List.getElem?_eq_getElem hlt⟩

/-- An exchange stays orderly if its lines age, and if those who are added to the audience have
been greeted. -/
theorem Orderly.turned (h : x.Orderly latest) {r : Relay}
    (hlength : r.lines.length = x.relay.lines.length)
    (hages : ∀ (l t : Nat) (line : Line), x.callers[l]? = some (t + 1) → x.relay.lines[l]? = some line →
      ∃ line', r.lines[l]? = some line' ∧ line.Ages line')
    (haudience : ∀ i s, (i, s) ∈ r.sessions → s.watchers.Nodup ∧ ∀ m ∈ s.watchers,
      (∃ i s, (i, s) ∈ x.relay.sessions ∧ m ∈ s.watchers) ∨
        ∃ t line, x.callers[m]? = some (t + 1) ∧ r.lines[m]? = some line ∧
          line.attendant ≠ .greeting) :
    Orderly { x with relay := r } latest where
  lines := h.lines.trans hlength.symm
  tasks := h.tasks
  own := h.own
  watchers := h.watchers
  lined := by
    intro l t line' hcaller hline'
    obtain ⟨line, hline⟩ := h.exists_line hcaller
    obtain ⟨line'', hline'', hage⟩ := hages l t line hcaller hline
    have hsame : line' = line'' := Option.some.inj (hline'.symm.trans hline'')
    rw [hsame]
    exact hage.isWatchers (h.lined l t line hcaller hline)
  audience := by
    intro i s hs
    obtain ⟨hnodup, hall⟩ := haudience i s hs
    refine ⟨hnodup, ?_⟩
    intro m hm
    rcases hall m hm with ⟨j, s', hs', hm'⟩ | hnew
    · obtain ⟨t, line, hcaller, hline, hgreeted⟩ := (h.audience j s' hs').2 m hm'
      obtain ⟨line', hline', hage⟩ := hages m t line hcaller hline
      exact ⟨t, line', hcaller, hline', hage.greeted hgreeted⟩
    · exact hnew

/-- What goes up on the line of a watcher must not be touched. -/
theorem Orderly.onLink (h : x.Orderly latest) {f : Link → Link}
    (hf : x.callers[l]? = some 0 ∨ ∀ line, x.relay.lines[l]? = some line →
      (f line.link).up.waiting = line.link.up.waiting) :
    (x.onLink l f).Orderly latest := by
  refine h.turned (Relay.length_onLink ..) ?_ ?_
  · intro m t line hcaller hline
    by_cases hm : m = l
    · subst hm
      have hup : (f line.link).up.waiting = line.link.up.waiting := by
        rcases hf with hzero | hup
        · rw [hzero] at hcaller
          simp at hcaller
        · exact hup line hline
      exact ⟨_, Relay.getElem?_onLink_self hline f, Line.ages_of_up rfl hup⟩
    · exact ⟨line, by rw [Relay.getElem?_onLink_ne _ hm, hline], line.ages_self⟩
  · intro i s hs
    exact ⟨(h.audience i s hs).1, fun m hm => Or.inl ⟨i, s, hs, hm⟩⟩

theorem spares_onLink (hl : x.callers[l]? = some t) (f : Link → Link) {u : Nat} (hu : u ≠ t) :
    x.Spares (x.onLink l f) u where
  callers := fun _ => Iff.rfl
  lines := by
    intro m hm
    apply Relay.getElem?_onLink_ne
    rintro rfl
    rw [hl] at hm
    exact hu (Option.some.inj hm).symm
  task := rfl

/-! ## Steps of tasks -/

theorem Orderly.advance (h : x.Orderly latest)
    (hline : ∀ l, phase.line? = some l → x.callers[l]? = some t)
    (hphase : t = 0 ∨ ∀ l, phase ≠ .awaiting l) : (x.advance t phase).Orderly latest where
  lines := h.lines
  tasks := (length_advanced ..).trans h.tasks
  own := by
    intro u task l htask hl
    rcases advanced_cases htask with ⟨rfl, old, hold, rfl⟩ | ⟨-, hold⟩
    · exact hline l hl
    · exact h.own u task l hold hl
  watchers := by
    intro u task htask
    rcases advanced_cases htask with ⟨hu, old, hold, rfl⟩ | ⟨-, hold⟩
    · obtain ⟨id, phase', cancelled, rfl, -⟩ := h.watchers u old hold
      refine ⟨id, phase, cancelled, rfl, ?_⟩
      rcases hphase with hzero | hphase
      · omega
      · exact hphase
    · exact h.watchers u task hold
  lined := h.lined
  audience := h.audience

theorem spares_advance (x : Exchange) (phase : Phase) {u : Nat} (hu : u ≠ t) :
    x.Spares (x.advance t phase) u where
  callers := fun _ => Iff.rfl
  lines := fun _ _ => rfl
  task := getElem?_advanced_ne _ hu phase

theorem getElem?_snoc {α : Type} (xs : List α) (a b : α) (n : Nat) :
    (xs ++ [a])[n]? = some b ↔ xs[n]? = some b ∨ n = xs.length ∧ a = b := by
  rw [List.getElem?_append]
  by_cases hn : n < xs.length
  · rw [if_pos hn]
    have hne : n ≠ xs.length := by omega
    simp [hne]
  · rw [if_neg hn, List.getElem?_eq_none (by omega : xs.length ≤ n)]
    by_cases heq : n = xs.length
    · simp [heq]
    · have hpos : n - xs.length ≠ 0 := by omega
      simp [heq, hpos]

/-- A new line belongs to the task that called. -/
theorem Orderly.call (h : x.Orderly latest) {text : String}
    (htext : t = 0 ∨ ∃ id, text = Relay.watchText id) : (x.call t text).Orderly latest := by
  have hline : ∀ {l : Nat} {line : Line}, x.relay.lines[l]? = some line →
      (x.call t text).relay.lines[l]? = some line := fun h => (getElem?_snoc ..).mpr (Or.inl h)
  have hcaller : ∀ {l u : Nat}, x.callers[l]? = some u → (x.call t text).callers[l]? = some u :=
    fun h => (getElem?_snoc ..).mpr (Or.inl h)
  refine ⟨?_, h.tasks, ?_, h.watchers, ?_, ?_⟩
  · simp [Exchange.call, Relay.called, h.lines]
  · intro u task l htask hl
    exact hcaller (h.own u task l htask hl)
  · intro l u line hl hnew
    rcases (getElem?_snoc ..).mp hl with hold | ⟨hlast, hu⟩
    · obtain ⟨line', hline'⟩ := h.exists_line hold
      have hsame : line = line' := Option.some.inj (hnew.symm.trans (hline hline'))
      exact hsame ▸ h.lined l u line' hold hline'
    · have hself : (x.call t text).relay.lines[l]? =
          some ⟨⟨⟨[text], true, true⟩, .fresh⟩, .greeting⟩ :=
        (getElem?_snoc ..).mpr (Or.inr ⟨hlast.trans h.lines, rfl⟩)
      have hsame := Option.some.inj (hnew.symm.trans hself)
      rcases htext with hzero | ⟨id, rfl⟩
      · omega
      · exact hsame ▸ .asks id rfl rfl
  · intro i s hs
    refine ⟨(h.audience i s hs).1, ?_⟩
    intro m hm
    obtain ⟨u, line, hcall, hold, hgreeted⟩ := (h.audience i s hs).2 m hm
    exact ⟨u, line, hcaller hcall, hline hold, hgreeted⟩

theorem Orderly.spares_call (h : x.Orderly latest) (text : String) {u : Nat} (hu : u ≠ t) :
    x.Spares (x.call t text) u where
  callers := by
    intro l
    show (x.callers ++ [t])[l]? = some u ↔ _
    rw [getElem?_snoc]
    simp [Ne.symm hu]
  lines := by
    intro l hl
    obtain ⟨line, hline⟩ := h.exists_line hl
    rw [hline]
    exact (getElem?_snoc ..).mpr (Or.inl hline)
  task := rfl

/-! ## Steps of clients -/

theorem getElem?_giveUp (x : Exchange) (s generation t : Nat) :
    (x.giveUp s generation).tasks[t]? = x.tasks[t]?.map fun task =>
      if task.station = s ∧ task.generation = generation then { task with cancelled := true }
      else task := by
  simp [giveUp, Network.giveUpAll]

theorem Orderly.giveUp (h : x.Orderly latest) (s generation : Nat) :
    (x.giveUp s generation).Orderly latest := by
  have hold : ∀ {t : Nat} {task : Task}, (x.giveUp s generation).tasks[t]? = some task →
      ∃ cancelled, x.tasks[t]? = some { task with cancelled } := by
    intro t task htask
    rw [getElem?_giveUp, Option.map_eq_some_iff] at htask
    obtain ⟨old, hold, rfl⟩ := htask
    refine ⟨old.cancelled, ?_⟩
    rw [hold]
    split <;> rfl
  refine ⟨h.lines, ?_, ?_, ?_, h.lined, h.audience⟩
  · exact (List.length_map ..).trans h.tasks
  · intro t task l htask hl
    obtain ⟨cancelled, htask'⟩ := hold htask
    exact h.own t _ l htask' hl
  · intro t task htask
    obtain ⟨cancelled, htask'⟩ := hold htask
    obtain ⟨id, phase, c, hwatcher, hphase⟩ := h.watchers t _ htask'
    refine ⟨id, phase, task.cancelled, ?_, hphase⟩
    obtain ⟨station, generation, purpose, phase', cancelled'⟩ := task
    simp only [watcherTask, Task.mk.injEq] at hwatcher ⊢
    simp [hwatcher]

theorem Orderly.enlist (h : x.Orderly latest) (id : String) :
    (x.enlist (latest + 1) id).Orderly (latest + 1) := by
  have hold : ∀ {t : Nat} {task : Task}, (x.enlist (latest + 1) id).tasks[t]? = some task →
      x.tasks[t]? = some task ∨
        t = latest + 1 ∧ watcherTask (latest + 1) id .calling false = task := by
    intro t task htask
    have hcases := (getElem?_snoc ..).mp htask
    rwa [h.tasks] at hcases
  refine ⟨h.lines, ?_, ?_, ?_, h.lined, h.audience⟩
  · simp [Exchange.enlist, h.tasks]
  · intro t task l htask hl
    rcases hold htask with htask' | ⟨-, rfl⟩
    · exact h.own t task l htask' hl
    · simp [watcherTask, Phase.line?] at hl
  · intro t task htask
    rcases hold htask with htask' | ⟨ht, rfl⟩
    · exact h.watchers t task htask'
    · have ht' : t = latest := by omega
      exact ⟨id, .calling, false, by rw [ht'], by simp⟩

theorem Orderly.spares_enlist (h : x.Orderly latest) (id : String) {u : Nat} (hu : u ≤ latest) :
    x.Spares (x.enlist (latest + 1) id) u where
  callers := fun _ => Iff.rfl
  lines := fun _ _ => rfl
  task := by
    have hlt : u < x.tasks.length := by
      rw [h.tasks]
      omega
    exact List.getElem?_append_left hlt

/-! ## The work of watchers -/

theorem Orderly.awaits_nothing (h : x.Orderly latest) {id : String} {cancelled : Bool}
    (htask : x.tasks[t + 1]? = some (watcherTask (t + 1) id phase cancelled)) :
    ∀ l, phase ≠ .awaiting l := by
  obtain ⟨id', phase', cancelled', hsame, hphase⟩ := h.watchers t _ htask
  simp only [watcherTask, Task.mk.injEq] at hsame
  rw [hsame.2.2.2.1]
  exact hphase

theorem Orderly.ask (h : x.Orderly latest) (t : Nat) (id : String) : (x.ask t id).Orderly latest := by
  have hcall : (x.call t (Relay.watchText id)).Orderly latest := h.call (Or.inr ⟨id, rfl⟩)
  refine hcall.advance ?_ (Or.inr (by simp))
  intro l hl
  simp only [Phase.line?, Option.some.injEq] at hl
  exact (getElem?_snoc ..).mpr (Or.inr ⟨hl.symm.trans h.lines.symm, rfl⟩)

theorem Orderly.spares_ask (h : x.Orderly latest) (id : String) {u : Nat} (hu : u ≠ t) :
    x.Spares (x.ask t id) u := (h.spares_call _ hu).trans (spares_advance _ _ hu)

theorem Orderly.depart (h : x.Orderly latest) (t l : Nat) : (x.depart t l).Orderly latest := by
  have hlink : (x.onLink l (·.leave .near)).Orderly latest := h.onLink (Or.inr fun _ _ => rfl)
  exact hlink.advance (by simp [Phase.line?]) (Or.inr (by simp))

theorem spares_depart (hl : x.callers[l]? = some t) {u : Nat} (hu : u ≠ t) :
    x.Spares (x.depart t l) u := (spares_onLink hl _ hu).trans (spares_advance _ _ hu)

/-- What is on its way down the line of a watcher does not matter. -/
theorem Orderly.hear (h : x.Orderly latest) {link : Link} {attendant : Attendant}
    (hline : x.relay.lines[l]? = some ⟨link, attendant⟩) (rest : List String) :
    (x.onLink l fun _ => link.heardNear rest).Orderly latest := by
  refine h.onLink (Or.inr ?_)
  intro line hline'
  rw [Option.some.inj (hline'.symm.trans hline)]
  rfl

section Watcher

variable {p o : Client} {pin oin : List Event} {id : String} {cancelled : Bool}

/-- Whatever the task of a watcher does next, it spares all other tasks and tells its client only
about its own session. -/
theorem Orderly.watcher_works (h : x.Orderly latest) {n : Network}
    (htask : x.tasks[t + 1]? = some (watcherTask (t + 1) id phase cancelled))
    (hn : (x.network p pin o oin).lag (t + 1) = some n) :
    ∃ y events, n = y.network p pin o (oin ++ events) ∧ y.Orderly latest ∧
      y.relay.sessions = x.relay.sessions ∧ (∀ u, u ≠ t + 1 → x.Spares y u) ∧
      ∀ e ∈ events, e.watched? = some (t + 1) := by
  cases phase with
  | calling =>
    rw [network, Network.lag_watch htask, Option.some.injEq] at hn
    exact ⟨x.ask (t + 1) id, [.observerJoined (t + 1)], hn.symm, h.ask (t + 1) id, rfl,
      fun u hu => h.spares_ask id hu, by simp [Event.watched?]⟩
  | awaiting l => exact absurd rfl (h.awaits_nothing htask l)
  | listening l =>
    have hcaller : x.callers[l]? = some (t + 1) := h.own (t + 1) _ l htask rfl
    obtain ⟨⟨link, attendant⟩, hline⟩ := h.exists_line hcaller
    rw [network, Network.lag_listen htask (Or.inr rfl)] at hn
    cases hwaiting : link.down.waiting with
    | nil =>
      rw [Network.listen_silent hline hwaiting] at hn
      by_cases hmore : link.down.takesMore = true
      · simp [hmore] at hn
      · rw [if_neg hmore, Option.some.injEq] at hn
        exact ⟨x.depart (t + 1) l, [.sessionClosed .observer (t + 1)], hn.symm, h.depart (t + 1) l,
          rfl, fun u hu => spares_depart hcaller hu, by simp [Event.watched?]⟩
    | cons text rest =>
      rw [Network.listen_message hline hwaiting, Option.some.injEq] at hn
      let y := x.onLink l fun _ => link.heardNear rest
      have hheard : y.Orderly latest := h.hear hline rest
      have hspares : ∀ u, u ≠ t + 1 → x.Spares y u := fun u hu => spares_onLink hcaller _ hu
      rcases Network.hear_watcher with ⟨action, hhear⟩ | hhear
      · rw [hhear] at hn
        exact ⟨y, [.remote (t + 1) action], hn.symm, hheard, rfl, hspares, by simp [Event.watched?]⟩
      · rw [hhear] at hn
        have hown : y.callers[l]? = some (t + 1) := hcaller
        exact ⟨y.depart (t + 1) l, [.sessionClosed .observer (t + 1)], hn.symm,
          hheard.depart (t + 1) l, rfl, fun u hu => (hspares u hu).trans (spares_depart hown hu),
          by simp [Event.watched?]⟩
  | finished =>
    rw [network, Network.lag_finished htask rfl] at hn
    simp at hn

/-- A watcher that was given up goes, and tells nobody. -/
theorem Orderly.watcher_quits (h : x.Orderly latest)
    (htask : x.tasks[t + 1]? = some (watcherTask (t + 1) id phase cancelled))
    (hphase : phase ≠ .finished) :
    ∃ y, (x.network p pin o oin).giveUp (t + 1) (watcherTask (t + 1) id phase cancelled) =
        y.network p pin o oin ∧ y.Orderly latest ∧ y.relay.sessions = x.relay.sessions ∧
      ∀ u, u ≠ t + 1 → x.Spares y u := by
  cases phase with
  | calling =>
    rw [network, Network.giveUp_calling rfl]
    exact ⟨x.advance (t + 1) .finished, rfl,
      h.advance (by simp [Phase.line?]) (Or.inr (by simp)), rfl, fun u hu => spares_advance x _ hu⟩
  | awaiting l => exact absurd rfl (h.awaits_nothing htask l)
  | listening l =>
    rw [network, Network.giveUp_watching]
    have hcaller : x.callers[l]? = some (t + 1) := h.own (t + 1) _ l htask rfl
    exact ⟨x.depart (t + 1) l, rfl, h.depart (t + 1) l, rfl, fun u hu => spares_depart hcaller hu⟩
  | finished => exact absurd rfl hphase

end Watcher

/-! ## The work of attendants -/

/-- The relay has dealt with something. -/
def answer (x : Exchange) (r : Relay) : Exchange := { x with relay := r }

theorem spares_answer {r : Relay} (hl : x.callers[l]? = some t) (h : x.relay.Touches r l) {u : Nat}
    (hu : u ≠ t) : x.Spares (x.answer r) u where
  callers := fun _ => Iff.rfl
  lines := by
    intro m hm
    apply h.others
    rintro rfl
    rw [hl] at hm
    exact hu (Option.some.inj hm).symm
  task := rfl

/-- The line of a watcher is attended to as such. -/
theorem Orderly.attend_watcher (h : x.Orderly latest) {r : Relay}
    (hl : x.callers[l]? = some (t + 1)) (hr : x.relay.attend l = some r) :
    ∃ line, x.relay.lines[l]? = some line ∧ x.relay.Touches r l ∧
      x.relay.WatcherStep l line r := by
  obtain ⟨⟨link, attendant⟩, hline⟩ := h.exists_line hl
  refine ⟨⟨link, attendant⟩, hline, ?_⟩
  cases h.lined l t _ hl hline with
  | asks id hattendant hwaiting =>
    cases hattendant
    obtain ⟨r', hr', htouches, hstep⟩ := Relay.attend_watch hline hwaiting
    rw [hr, Option.some.injEq] at hr'
    exact hr' ▸ ⟨htouches, hstep⟩
  | watches hattendant hwaiting =>
    cases hattendant
    exact Relay.attend_watching hline hwaiting hr
  | left hattendant =>
    cases hattendant
    unfold Relay.attend at hr
    simp [hline] at hr

theorem Orderly.answer_watcher (h : x.Orderly latest) {r : Relay} {line : Line}
    (hl : x.callers[l]? = some (t + 1)) (hline : x.relay.lines[l]? = some line)
    (htouches : x.relay.Touches r l) (hstep : x.relay.WatcherStep l line r) :
    (x.answer r).Orderly latest := by
  have hothers : ∀ (line' : Line), r.lines[l]? = some line' → line.Ages line' →
      ∀ (m u : Nat) (old : Line), x.callers[m]? = some (u + 1) → x.relay.lines[m]? = some old →
        ∃ new, r.lines[m]? = some new ∧ old.Ages new := by
    intro line' hline' hage m u old _ hold
    by_cases hm : m = l
    · subst hm
      rw [hline, Option.some.injEq] at hold
      exact ⟨line', hline', hold ▸ hage⟩
    · exact ⟨old, (htouches.others m hm).trans hold, old.ages_self⟩
  have hgone : ∀ link : Link, line.Ages ⟨link, .gone⟩ := fun link =>
    ⟨fun _ => .left rfl, fun _ => by simp⟩
  have hkept : r.sessions = x.relay.sessions → ∀ i s, (i, s) ∈ r.sessions →
      s.watchers.Nodup ∧ ∀ m ∈ s.watchers, (∃ i s, (i, s) ∈ x.relay.sessions ∧ m ∈ s.watchers) ∨
        ∃ t line, x.callers[m]? = some (t + 1) ∧ r.lines[m]? = some line ∧
          line.attendant ≠ .greeting := by
    intro hsessions i s hs
    rw [hsessions] at hs
    exact ⟨(h.audience i s hs).1, fun m hm => Or.inl ⟨i, s, hs, hm⟩⟩
  cases hstep with
  | refused link hgreeting hsessions hline' hdown =>
    exact h.turned htouches.length (hothers _ hline' (hgone link)) (hkept hsessions)
  | left link hwatching hsessions hline' hdown =>
    exact h.turned htouches.length (hothers _ hline' (hgone link)) (hkept hsessions)
  | joined id s link hgreeting hsession hsessions hline' hup hdown =>
    have hage : line.Ages ⟨link, .watching⟩ := ⟨fun _ => .watches rfl hup, fun _ => by simp⟩
    refine h.turned htouches.length (hothers _ hline' hage) ?_
    intro i s' hs'
    rw [hsessions, List.mem_map] at hs'
    obtain ⟨⟨j, old⟩, hold, hsame⟩ := hs'
    obtain ⟨hnodup, hall⟩ := h.audience j old hold
    have hfresh : l ∉ old.watchers := by
      intro hmem
      obtain ⟨u, line', -, hline'', hgreeted⟩ := hall l hmem
      rw [hline, Option.some.injEq] at hline''
      exact hgreeted (hline'' ▸ hgreeting)
    simp only [Prod.mk.injEq] at hsame
    obtain ⟨-, rfl⟩ := hsame
    by_cases hj : j = id
    · rw [if_pos hj]
      refine ⟨List.nodup_append.mpr ⟨hnodup, by simp, ?_⟩, ?_⟩
      · intro a ha b hb
        rw [List.mem_singleton.mp hb]
        rintro rfl
        exact hfresh ha
      · intro m hm
        rcases List.mem_append.mp hm with hm | hm
        · exact Or.inl ⟨j, old, hold, hm⟩
        · rw [List.mem_singleton.mp hm]
          exact Or.inr ⟨t, _, hl, hline', by simp⟩
    · rw [if_neg hj]
      exact ⟨hnodup, fun m hm => Or.inl ⟨j, old, hold, hm⟩⟩

/-- The line of the presenter is attended to, and the lines of some watchers are used downwards. -/
theorem Orderly.answer_presenter (h : x.Orderly latest) {r : Relay} {ws : List Nat}
    {f : Link → Link} (hl : x.callers[l]? = some 0)
    (hlength : r.lines.length = x.relay.lines.length)
    (hothers : ∀ m, m ≠ l → r.lines[m]? = x.relay.lines[m]?.map fun line =>
      if m ∈ ws then ⟨f line.link, line.attendant⟩ else line)
    (hf : ∀ link, (f link).up = link.up)
    (hsessions : ∀ i s, (i, s) ∈ r.sessions → s.watchers.Nodup ∧
      ∀ m ∈ s.watchers, ∃ i s, (i, s) ∈ x.relay.sessions ∧ m ∈ s.watchers) :
    (x.answer r).Orderly latest := by
  refine h.turned hlength ?_ ?_
  · intro m t line hm hline
    have hne : m ≠ l := by
      rintro rfl
      rw [hl] at hm
      simp at hm
    have hnew := hothers m hne
    rw [hline] at hnew
    refine ⟨_, hnew, ?_⟩
    by_cases hmem : m ∈ ws
    · simp only [hmem, if_true]
      exact Line.ages_of_up rfl (congrArg Pipe.waiting (hf line.link))
    · simp only [hmem, if_false]
      exact line.ages_self
  · intro i s hs
    exact ⟨(hsessions i s hs).1, fun m hm => Or.inl ((hsessions i s hs).2 m hm)⟩

theorem Orderly.answer_touched (h : x.Orderly latest) {r : Relay} (hl : x.callers[l]? = some 0)
    (htouches : x.relay.Touches r l)
    (hsessions : ∀ i s, (i, s) ∈ r.sessions → s.watchers.Nodup ∧
      ∀ m ∈ s.watchers, ∃ i s, (i, s) ∈ x.relay.sessions ∧ m ∈ s.watchers) :
    (x.answer r).Orderly latest := by
  have hothers : ∀ m, m ≠ l → r.lines[m]? = x.relay.lines[m]?.map fun line =>
      if m ∈ ([] : List Nat) then ⟨id line.link, line.attendant⟩ else line := by
    intro m hm
    rw [htouches.others m hm]
    simp
  exact h.answer_presenter hl htouches.length hothers (fun _ => rfl) hsessions

end Steps

end Exchange

end TurtleScript
