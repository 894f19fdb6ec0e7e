-- A presenter, a relay and an observer in any order of moves. The sides of
-- the two clients fit together after every move, so the observer's script is
-- always made by the first lines of the session, and in the end by all.
import TurtleScript.Proofs.Rebuilding
import TurtleScript.Proofs.Sharing.Following

namespace TurtleScript

open SessionIds (counted)

namespace Broadcast

open Exchange

/-! ## The invariant -/

/-- Both sides of a broadcast, and what the presenter's script is made of. -/
structure Sound (b : Broadcast) (x : Exchange) (p : Client) (pin : List Event) (o : Client)
    (oin : List Event) (stage : Stage) : Prop where
  network : b.network = x.network p pin o oin
  orderly : x.Orderly o.generation
  presents : x.Presents p.presenting pin b.relayed stage
  observes : x.Observes o oin b.relayed b.joined stage
  script : p.present.bare = scriptOf (b.relayed ++ b.unheard)
  unheard : p.presenting.isSome = true → b.unheard = []
  quiet : o.presenting = none
  inbox : ∀ e ∈ oin, ∃ g, e.watched? = some g ∧ g ≤ o.generation

/-- A broadcast after a move that changes nothing but the network. -/
def after (b : Broadcast) (n : Network) : Broadcast :=
  { b with network := n, joined := b.joined || n.isAttended }

theorem move_eq_after (b : Broadcast) {m : Move}
    (h : (∀ text, m ≠ .submit text) ∧ m ≠ .stop ∧ ∀ url, m ≠ .watch url) :
    b.move m = b.after (b.network.move m) := by
  cases m with
  | submit text => exact absurd rfl (h.1 text)
  | stop => exact absurd rfl h.2.1
  | watch url => exact absurd rfl (h.2.2 url)
  | _ => simp [move, after]

section Sound

variable {b : Broadcast} {x y : Exchange} {p p' o o' : Client} {pin pin' oin oin' : List Event}
  {stage stage' : Stage}

/-- Being attended to says nothing new of an observer whose side is known. -/
theorem joined_or_isAttended {texts : List String} {joined : Bool}
    (hpresents : x.Presents p.presenting pin texts stage)
    (hobserves : x.Observes o oin texts joined stage) (hx : x.Orderly o.generation) :
    (joined || (x.network p pin o oin).isAttended) = joined := by
  obtain ⟨phase, cancelled, htask⟩ := hpresents.task
  cases hattended : (x.network p pin o oin).isAttended with
  | false => exact Bool.or_false joined
  | true => rw [hobserves.joined_of_isAttended hx htask hattended, Bool.true_or]

theorem Sound.generation_ne_zero (h : b.Sound x p pin o oin stage) (hwatching : o.watching ≠ none) :
    o.generation ≠ 0 := by
  intro hzero
  obtain ⟨phase, cancelled, htask⟩ := h.presents.task
  rcases h.observes.watching_cases with hnone | ⟨id, phase', htunes⟩
  · exact hwatching hnone
  · have hsame := htunes.task
    rw [hzero, htask] at hsame
    simp [presenterTask, watcherTask] at hsame

/-- The presenter's side has gone on, perhaps with other lines. -/
theorem Sound.presenter_goes (h : b.Sound x p pin o oin stage) {texts unheard : List String}
    (hgoes : x.Goes y o.generation) (hpresents : y.Presents p'.presenting pin' texts stage')
    (hw : Widens stage b.relayed stage' texts)
    (hscript : p'.present.bare = scriptOf (texts ++ unheard))
    (hslot : p'.presenting.isSome = true → unheard = []) :
    Sound ⟨y.network p' pin' o oin, texts, unheard,
      b.joined || (y.network p' pin' o oin).isAttended⟩ y p' pin' o oin stage' := by
  have hobserves : y.Observes o oin texts b.joined stage' := h.observes.spared h.orderly
    (fun hwatching => hgoes.spares _ (h.generation_ne_zero hwatching)) hw
  refine ⟨rfl, hgoes.orderly, hpresents, ?_, hscript, hslot, h.quiet, h.inbox⟩
  rw [joined_or_isAttended hpresents hobserves hgoes.orderly]
  exact hobserves

theorem Sound.after_presenter (h : b.Sound x p pin o oin stage) (hgoes : x.Goes y o.generation)
    (hpresents : y.Presents p'.presenting pin' b.relayed stage')
    (hw : Widens stage b.relayed stage' b.relayed) (hscript : p'.present.bare = p.present.bare)
    (hslot : p'.presenting.isSome = true → p.presenting.isSome = true) :
    (b.after (y.network p' pin' o oin)).Sound y p' pin' o oin stage' :=
  h.presenter_goes hgoes hpresents hw (hscript.trans h.script) fun hsome => h.unheard (hslot hsome)

/-- The observer's side has gone on. -/
theorem Sound.after_observer (h : b.Sound x p pin o oin stage) (hy : y.Orderly o'.generation)
    (hspares : x.Spares y 0) (hsessions : y.relay.sessions = x.relay.sessions)
    (hobserves : y.Observes o' oin' b.relayed b.joined stage) (hquiet : o'.presenting = none)
    (hinbox : ∀ e ∈ oin', ∃ g, e.watched? = some g ∧ g ≤ o'.generation) :
    (b.after (y.network p pin o' oin')).Sound y p pin o' oin' stage := by
  have hpresents := h.presents.spared hspares hsessions
  refine ⟨rfl, hy, hpresents, ?_, h.script, h.unheard, hquiet, hinbox⟩
  unfold after
  rw [joined_or_isAttended hpresents hobserves hy]
  exact hobserves

theorem Sound.after_same (h : b.Sound x p pin o oin stage) :
    (b.after b.network).Sound x p pin o oin stage := by
  rw [h.network]
  exact h.after_presenter h.orderly.stays h.presents (widens_self stage fun _ => rfl) rfl id

/-! ## The presenter's actions -/

theorem Sound.presenting? (h : b.Sound x p pin o oin stage) :
    b.network.presenting? = p.presenting := by
  rw [h.network]
  rfl

theorem Sound.submits (h : b.Sound x p pin o oin stage) (text : String) :
    ∃ y p', (b.move (.submit text)).Sound y p' pin o oin stage := by
  obtain ⟨y, hdispatch, hgoes, hpresents, hslot, hstage⟩ :=
    h.presents.submits h.orderly text o oin
  have hnetwork : b.network.move (.submit text) =
      y.network (p.dispatch (.submit text)).client pin o oin := by
    rw [h.network]
    exact hdispatch
  have hscript : (p.dispatch (.submit text)).client.present.bare =
      scriptOf (b.relayed ++ b.unheard ++ [text]) := bare_submit_of_bare h.script text
  refine ⟨y, (p.dispatch (.submit text)).client, ?_⟩
  unfold move
  simp only [hnetwork, h.presenting?, Bool.not_false, Bool.and_true]
  cases hp : p.presenting with
  | none =>
    rw [hp] at hpresents hslot
    refine h.presenter_goes hgoes hpresents (widens_self stage fun _ => rfl) ?_ ?_
    · rw [hscript]
      exact congrArg scriptOf (List.append_assoc ..)
    · simp [hslot]
  | some slot =>
    have hsome : p.presenting.isSome = true := by rw [hp]; rfl
    have hunheard := h.unheard hsome
    rw [hp] at hpresents
    refine h.presenter_goes hgoes hpresents ?_ ?_ fun _ => hunheard
    · exact widens_self stage fun hover => absurd hover (hstage hsome)
    · rw [hscript, hunheard]
      simp

theorem Sound.renames (h : b.Sound x p pin o oin stage) (name : String) :
    ∃ p', (b.move (.rename name)).Sound x p' pin o oin stage := by
  obtain ⟨hdispatch, hpresents⟩ := h.presents.renames name o oin
  have hscript : (p.dispatch (.rename name)).client.present.bare = p.present.bare := by
    rw [Client.present_dispatch p rfl]
    rfl
  have hnetwork : b.network.move (.rename name) =
      x.network (p.dispatch (.rename name)).client pin o oin := by
    rw [h.network]
    exact hdispatch
  refine ⟨(p.dispatch (.rename name)).client, ?_⟩
  rw [move_eq_after b (by simp), hnetwork]
  exact h.after_presenter h.orderly.stays hpresents (widens_self stage fun _ => rfl) hscript id

theorem Sound.stops (h : b.Sound x p pin o oin stage) :
    ∃ y p', (b.move .stop).Sound y p' pin o oin stage := by
  obtain ⟨y, texts', hdispatch, hgoes, hnone, hpresents, htexts, hstage⟩ :=
    h.presents.stops h.orderly o oin
  have hnetwork : b.network.move .stop = y.network (p.dispatch .stopSharing).client pin o oin := by
    rw [h.network]
    exact hdispatch
  have hscript : (p.dispatch .stopSharing).client.present.bare =
      scriptOf (b.relayed ++ b.unheard) := by
    rw [Client.present_stop]
    exact h.script
  have hw : Widens stage b.relayed stage texts' :=
    widens_self stage fun hover => Classical.byContradiction fun hne => hstage hne hover
  rw [← hnone] at hpresents
  refine ⟨y, (p.dispatch .stopSharing).client, ?_⟩
  unfold move
  simp only [hnetwork, h.presenting?, Bool.not_false, Bool.and_true]
  cases hp : p.presenting with
  | none =>
    rw [hp] at htexts
    subst htexts
    exact h.presenter_goes hgoes hpresents hw hscript (by simp [hnone])
  | some slot =>
    obtain ⟨generation, known, outlet⟩ := slot
    rw [hp] at htexts
    cases outlet with
    | pending messages =>
      subst htexts
      exact h.presenter_goes hgoes hpresents hw hscript (by simp [hnone])
    | «open» l =>
      subst htexts
      exact h.presenter_goes hgoes hpresents hw hscript (by simp [hnone])

/-! ## Events -/

theorem Sound.processes (h : b.Sound x p pin o oin stage) (s : Nat) :
    ∃ y p' pin' o' oin', (b.move (.process s)).Sound y p' pin' o' oin' stage := by
  have hsame : b.network.process? s = none → ∃ y p' pin' o' oin',
      (b.move (.process s)).Sound y p' pin' o' oin' stage := by
    intro hnone
    refine ⟨x, p, pin, o, oin, ?_⟩
    have hnetwork : b.network.move (.process s) = b.network := by simp [Network.move, hnone]
    rw [move_eq_after b (by simp), hnetwork]
    exact h.after_same
  match s with
  | 0 =>
    cases pin with
    | nil => exact hsame (by rw [h.network]; rfl)
    | cons event pin =>
      obtain ⟨y, p', hprocess, hgoes, hpresent, hpresents, hslot⟩ :=
        h.presents.processes h.orderly o oin
      have hnetwork : b.network.move (.process 0) = y.network p' pin o oin := by
        rw [h.network]
        simp only [Network.move, hprocess, Option.getD_some]
      refine ⟨y, p', pin, o, oin, ?_⟩
      rw [move_eq_after b (by simp), hnetwork]
      exact h.after_presenter hgoes hpresents (widens_self stage fun _ => rfl)
        (congrArg Script.bare hpresent) hslot
  | 1 =>
    cases oin with
    | nil => exact hsame (by rw [h.network]; rfl)
    | cons event oin =>
      obtain ⟨phase, cancelled, htask⟩ := h.presents.task
      obtain ⟨g, hwatched, -⟩ := h.inbox event List.mem_cons_self
      obtain ⟨y, o', hprocess, horderly, hspares, hsessions, hquiet, hgeneration, hobserves⟩ :=
        h.observes.processes h.orderly h.quiet hwatched htask p pin
      have hnetwork : b.network.move (.process 1) = y.network p pin o' oin := by
        rw [h.network]
        simp only [Network.move, hprocess, Option.getD_some]
      refine ⟨y, p, pin, o', oin, ?_⟩
      rw [move_eq_after b (by simp), hnetwork]
      refine h.after_observer (hgeneration ▸ horderly) hspares hsessions hobserves hquiet ?_
      intro e he
      rw [hgeneration]
      exact h.inbox e (List.mem_cons_of_mem _ he)
  | s + 2 => exact hsame (by rw [h.network]; rfl)

/-! ## The observer's actions -/

theorem Sound.watches (h : b.Sound x p pin o oin stage) (url : String) :
    ∃ y o', (b.move (.watch url)).Sound y p pin o' oin stage := by
  obtain ⟨phase, cancelled, htask⟩ := h.presents.task
  obtain ⟨y, o', hdispatch, horderly, hspares, hsessions, hquiet, hgeneration, hobserves⟩ :=
    h.observes.watches h.orderly h.quiet h.inbox htask url p pin
  have hnetwork : b.network.move (.watch url) = y.network p pin o' oin := by
    rw [h.network]
    exact hdispatch
  have hpresents := h.presents.spared hspares hsessions
  refine ⟨y, o', ?_⟩
  unfold move
  simp only [hnetwork]
  refine ⟨rfl, horderly, hpresents, ?_, h.script, h.unheard, hquiet, ?_⟩
  · simp only [joined_or_isAttended hpresents hobserves horderly]
    exact hobserves
  · intro e he
    obtain ⟨g, hwatched, hg⟩ := h.inbox e he
    exact ⟨g, hwatched, by omega⟩

/-! ## Tasks and attendants -/

/-- A task has gone on, or it has gone because it was given up. -/
theorem Sound.works (h : b.Sound x p pin o oin stage) {t : Nat} {n : Network}
    (hn : b.network.lag t = some n ∨ ∃ task, b.network.tasks[t]? = some task ∧
      task.cancelled = true ∧ task.phase ≠ .finished ∧ n = b.network.giveUp t task) :
    ∃ y pin' oin' stage', (b.after n).Sound y p pin' o oin' stage' := by
  obtain ⟨presents, given, hpresenter⟩ := h.presents.task
  rw [h.network] at hn
  have hown : ∀ {t : Nat} {task : Task}, (x.network p pin o oin).tasks[t]? = some task →
      x.tasks[t]? = some task := fun htask => htask
  cases t with
  | zero =>
    rcases hn with hlag | ⟨task, htask, hcancelled, hphase, hquit⟩
    · obtain ⟨y, pin', rfl, hgoes, hpresents⟩ := h.presents.works h.orderly hlag
      exact ⟨y, pin', oin, stage, h.after_presenter hgoes hpresents (widens_self _ fun _ => rfl) rfl
        fun hsome => hsome⟩
    · obtain rfl := Option.some.inj (hpresenter.symm.trans (hown htask))
      have hgiven : given = true := hcancelled
      subst hgiven
      obtain ⟨y, stage', hy, hgoes, hpresents, hstage⟩ :=
        h.presents.quits h.orderly hpresenter hphase
      rw [hquit, hy]
      refine ⟨y, pin, oin, stage', h.after_presenter hgoes hpresents ?_ rfl fun hsome => hsome⟩
      rcases hstage with rfl | rfl
      · exact widens_self _ fun _ => rfl
      · exact widens_ahead _ _ _
  | succ t =>
    have htask : ∃ task, x.tasks[t + 1]? = some task := by
      rcases hn with hlag | ⟨task, htask, -⟩
      · cases hnone : x.tasks[t + 1]? with
        | none => simp [Network.lag, Exchange.network, Network.pair, hnone] at hlag
        | some task => exact ⟨task, rfl⟩
      · exact ⟨task, htask⟩
    obtain ⟨task, htask⟩ := htask
    obtain ⟨id, phase, cancelled, rfl, -⟩ := h.orderly.watchers t task htask
    have hle : t + 1 ≤ o.generation := by
      have hlt := (List.getElem?_eq_some_iff.mp htask).1
      rw [h.orderly.tasks] at hlt
      omega
    by_cases hcurrent : o.generation = t + 1 ∧ o.watching ≠ none
    · obtain ⟨hgeneration, hwatching⟩ := hcurrent
      have hlag : (x.network p pin o oin).lag o.generation = some n := by
        rw [hgeneration]
        rcases hn with hlag | ⟨task, htask', hcancelled, -⟩
        · exact hlag
        · rcases h.observes.watching_cases with hnone | ⟨id', phase', htunes⟩
          · exact absurd hnone hwatching
          · have hsame := htunes.task
            rw [hgeneration] at hsame
            rw [Option.some.inj ((hown htask').symm.trans hsame)] at hcancelled
            simp [watcherTask] at hcancelled
      obtain ⟨y, events, rfl, horderly, hspares, hsessions, hwatched, hobserves⟩ :=
        h.observes.works h.orderly hwatching hlag
      refine ⟨y, pin, oin ++ events, stage, h.after_observer horderly (hspares 0 (by omega))
        hsessions hobserves h.quiet ?_⟩
      intro e he
      rcases List.mem_append.mp he with he | he
      · exact h.inbox e he
      · exact ⟨o.generation, hwatched e he, Nat.le_refl _⟩
    · have hworks : ∃ y events, n = y.network p pin o (oin ++ events) ∧ y.Orderly o.generation ∧
          y.relay.sessions = x.relay.sessions ∧ (∀ u, u ≠ t + 1 → x.Spares y u) ∧
          ∀ e ∈ events, e.watched? = some (t + 1) := by
        rcases hn with hlag | ⟨task, htask', -, hphase, hquit⟩
        · exact h.orderly.watcher_works htask hlag
        · obtain rfl := Option.some.inj (htask.symm.trans (hown htask'))
          obtain ⟨y, hy, horderly, hsessions, hspares⟩ := h.orderly.watcher_quits htask hphase
          exact ⟨y, [], by rw [hquit, hy, List.append_nil], horderly, hsessions, hspares, by simp⟩
      have hother : o.watching ≠ none → o.generation ≠ t + 1 :=
        fun hwatching hgeneration => hcurrent ⟨hgeneration, hwatching⟩
      obtain ⟨y, events, rfl, horderly, hsessions, hspares, hwatched⟩ := hworks
      have hobserves : y.Observes o oin b.relayed b.joined stage := h.observes.spared h.orderly
        (fun hwatching => hspares _ (hother hwatching)) (widens_self stage fun _ => rfl)
      refine ⟨y, pin, oin ++ events, stage, h.after_observer horderly (hspares 0 (by omega))
        hsessions (hobserves.same rfl rfl rfl ?_) h.quiet ?_⟩
      · intro hwatching
        have hnews : news o.generation events = [] := news_of_others fun e he =>
          ⟨t + 1, hwatched e he, Ne.symm (hother hwatching)⟩
        rw [news_append, hnews, List.append_nil]
      · intro e he
        rcases List.mem_append.mp he with he | he
        · exact h.inbox e he
        · exact ⟨t + 1, hwatched e he, hle⟩

/-- An attendant has dealt with its line. -/
theorem Sound.attended (h : b.Sound x p pin o oin stage) {l : Nat} {r : Relay}
    (hr : x.relay.attend l = some r) :
    ∃ stage', (b.after ((x.answer r).network p pin o oin)).Sound (x.answer r) p pin o oin stage' := by
  have hcaller : ∃ t, x.callers[l]? = some t := by
    cases hline : x.relay.lines[l]? with
    | none => simp [Relay.attend, hline] at hr
    | some line =>
      have hlt := (List.getElem?_eq_some_iff.mp hline).1
      rw [← h.orderly.lines] at hlt
      exact ⟨_, List.getElem?_eq_getElem hlt⟩
  obtain ⟨t, hl⟩ := hcaller
  cases t with
  | zero =>
    obtain ⟨stage', horderly, hpresents, hstep⟩ := h.presents.attended h.orderly hl hr
    have hobserves : (x.answer r).Observes o oin b.relayed b.joined stage' := by
      cases hstep with
      | begun stage' htouches =>
        exact h.observes.spared h.orderly
          (fun hwatching => spares_answer hl htouches (h.generation_ne_zero hwatching))
          (widens_ahead _ _ _)
      | passed log ws text hothers =>
        exact h.observes.passed hl h.generation_ne_zero (h.presents.audience h.orderly rfl)
          h.orderly hothers
      | ended ws hothers =>
        exact h.observes.hungUp hl h.generation_ne_zero (h.presents.audience h.orderly rfl)
          h.orderly hothers
    refine ⟨stage', rfl, horderly, hpresents, ?_, h.script, h.unheard, h.quiet, h.inbox⟩
    simp only [after, joined_or_isAttended hpresents hobserves horderly]
    exact hobserves
  | succ t =>
    obtain ⟨line, hline, htouches, hstep⟩ := h.orderly.attend_watcher hl hr
    have horderly := h.orderly.answer_watcher hl hline htouches hstep
    obtain ⟨stage', hpresents, hturn⟩ := h.presents.watcher_attended hl htouches hstep
    obtain ⟨joined', hobserves, hjoined⟩ := h.observes.attended hline htouches hturn
    refine ⟨stage', rfl, horderly, hpresents, ?_, h.script, h.unheard, h.quiet, h.inbox⟩
    rcases hjoined with rfl | ⟨rfl, id, link, htunes, hwatching⟩
    · simp only [after, joined_or_isAttended hpresents hobserves horderly]
      exact hobserves
    · simp only [after, isAttended_of_watching htunes hwatching, Bool.or_true]
      exact hobserves

/-! ## All moves -/

theorem Sound.moves (h : b.Sound x p pin o oin stage) (m : Move) :
    ∃ y p' pin' o' oin' stage', (b.move m).Sound y p' pin' o' oin' stage' := by
  have hsame : (∀ text, m ≠ .submit text) ∧ m ≠ .stop ∧ (∀ url, m ≠ .watch url) →
      b.network.move m = b.network →
      ∃ y p' pin' o' oin' stage', (b.move m).Sound y p' pin' o' oin' stage' := by
    intro hm hnetwork
    refine ⟨x, p, pin, o, oin, stage, ?_⟩
    rw [move_eq_after b hm, hnetwork]
    exact h.after_same
  cases m with
  | submit text =>
    obtain ⟨y, p', hnext⟩ := h.submits text
    exact ⟨y, p', pin, o, oin, stage, hnext⟩
  | rename name =>
    obtain ⟨p', hnext⟩ := h.renames name
    exact ⟨x, p', pin, o, oin, stage, hnext⟩
  | stop =>
    obtain ⟨y, p', hnext⟩ := h.stops
    exact ⟨y, p', pin, o, oin, stage, hnext⟩
  | watch url =>
    obtain ⟨y, o', hnext⟩ := h.watches url
    exact ⟨y, p, pin, o', oin, stage, hnext⟩
  | process s =>
    obtain ⟨y, p', pin', o', oin', hnext⟩ := h.processes s
    exact ⟨y, p', pin', o', oin', stage, hnext⟩
  | work t =>
    cases hwork : b.network.work t with
    | none => exact hsame (by simp) (by simp [Network.move, hwork])
    | some n =>
      have hnetwork : b.network.move (.work t) = n := by simp [Network.move, hwork]
      obtain ⟨y, pin', oin', stage', hnext⟩ := h.works (Network.work_cases hwork)
      rw [move_eq_after b (by simp), hnetwork]
      exact ⟨y, p, pin', o, oin', stage', hnext⟩
  | lag t =>
    cases hlag : b.network.lag t with
    | none => exact hsame (by simp) (by simp [Network.move, hlag])
    | some n =>
      have hnetwork : b.network.move (.lag t) = n := by simp [Network.move, hlag]
      obtain ⟨y, pin', oin', stage', hnext⟩ := h.works (Or.inl hlag)
      rw [move_eq_after b (by simp), hnetwork]
      exact ⟨y, p, pin', o, oin', stage', hnext⟩
  | attend l =>
    have hattend : b.network.attend l =
        (x.relay.attend l).map fun r => (x.answer r).network p pin o oin := by
      rw [h.network]
      rfl
    cases hr : x.relay.attend l with
    | none => exact hsame (by simp) (by simp [Network.move, hattend, hr])
    | some r =>
      have hnetwork : b.network.move (.attend l) = (x.answer r).network p pin o oin := by
        simp [Network.move, hattend, hr]
      obtain ⟨stage', hnext⟩ := h.attended hr
      rw [move_eq_after b (by simp), hnetwork]
      exact ⟨x.answer r, p, pin, o, oin, stage', hnext⟩

/-! ## What holds in any case -/

/-- While the presenter sends over a line, the relay has the session. -/
theorem Sound.session_of_open (h : b.Sound x p pin o oin stage) {generation l : Nat} {id : String}
    (hslot : p.presenting = some ⟨generation, some id, .open l⟩) :
    (b.network.relay.session? id).isSome = true := by
  obtain ⟨-, id', log, sent, ws, phase, isOpen, hid, -, -, honair, -⟩ := h.presents.onAir hslot
  obtain rfl := Option.some.inj hid
  rw [h.network]
  show (x.relay.session? id).isSome = true
  rw [Relay.session?_of_sessions honair.sessions]
  rfl

/-- An observer that calls is let in exactly if there is the session that it asks for. -/
theorem Sound.joined_iff (h : b.Sound x p pin o oin stage) {id : String} {l : Nat}
    (hasks : b.network.asks id l) :
    (b.move (.attend l)).joined = true ↔ (b.network.relay.session? id).isSome = true := by
  obtain ⟨phase, cancelled, htask⟩ := h.presents.task
  rw [h.network] at hasks
  obtain ⟨htunes, hjoined, hline⟩ := h.observes.asking_of_asks h.orderly htask hasks
  obtain ⟨r, link, hr, hanswered⟩ := Relay.attend_watch_listening hline rfl rfl
  have hnetwork : b.network.move (.attend l) = (x.answer r).network p pin o oin := by
    rw [h.network]
    simp [Network.move, Exchange.network, Network.pair_attend, hr, answer]
  have hsession : b.network.relay.session? id = x.relay.session? id := by
    rw [h.network]
    rfl
  rw [move_eq_after b (by simp), hnetwork, hsession]
  show (b.joined || ((x.answer r).network p pin o oin).isAttended) = true ↔ _
  rw [hjoined, Bool.false_or]
  cases hs : (x.relay.session? id).isSome with
  | true =>
    rw [hs] at hanswered
    exact iff_of_true (isAttended_of_watching (htunes.answer r) hanswered) rfl
  | false =>
    rw [hs] at hanswered
    refine iff_of_false ?_ (by simp)
    intro hattended
    obtain ⟨stage', hnext⟩ := h.attended hr
    obtain ⟨m, link', hphase, hwatching⟩ := phase_of_isAttended hnext.orderly htask
      (htunes.answer r) hattended
    obtain rfl := Phase.listening.inj hphase
    have hgone := hanswered.symm.trans hwatching
    simp at hgone

end Sound

/-! ## Runs -/

theorem sound_run {b : Broadcast} (moves : List Move)
    (h : ∃ x p pin o oin stage, b.Sound x p pin o oin stage) :
    ∃ x p pin o oin stage, (moves.foldl move b).Sound x p pin o oin stage := by
  induction moves generalizing b with
  | nil => exact h
  | cons m moves ih =>
    obtain ⟨x, p, pin, o, oin, stage, hsound⟩ := h
    exact ih (hsound.moves m)

section Start

variable (presenter observer : Config) (actions : List Action) (fresh : Bool) (ids : SessionIds)

/-- The presenter that has just begun to share. -/
def sharer : Client :=
  ((Client.new presenter (Store.after actions)).dispatch (.startSharing fresh)).client

theorem network_start :
    (start presenter observer actions fresh ids).network =
      Exchange.network ⟨.fresh ids, [presenterTask .calling false], []⟩
        (sharer presenter actions fresh) [] (.new observer .empty) [] := by
  cases fresh <;> rfl

/-- What is kept for the relay makes the script that the presenter shares. -/
theorem present_sharer :
    (sharer presenter actions fresh).present.bare =
      scriptOf (start presenter observer actions fresh ids).relayed := by
  have hstart : ((Store.after actions).dispatch (.startSharing fresh)).present =
      (Store.after actions).present := Store.present_dispatch _ (by simp) (by simp)
  cases fresh with
  | true =>
    have hreset : (((Store.after actions).dispatch (.startSharing true)).dispatch .reset).present =
        .empty := Store.present_dispatch _ (by simp) (by simp)
    exact congrArg Script.bare hreset
  | false =>
    obtain ⟨hall, -⟩ :=
      (Store.faithful_of_mem_entries (Store.after actions).present_mem_entries).foldl_submit
    show ((Store.after actions).dispatch (.startSharing false)).present.bare = _
    rw [hstart]
    unfold scriptOf
    show _ = (List.foldl Script.submit .empty
      (submissions (Store.after actions).present.tokens.toList)).bare
    rw [hall]
    rfl

theorem sound_start : ∃ x p pin o oin stage,
    (start presenter observer actions fresh ids).Sound x p pin o oin stage := by
  have hpresenting := Client.presenting_dispatch_startSharing
    (Client.new presenter (Store.after actions)) fresh
  refine ⟨⟨.fresh ids, [presenterTask .calling false], []⟩, sharer presenter actions fresh, [],
    .new observer .empty, [], .ahead, ?_⟩
  refine ⟨network_start .., ⟨rfl, rfl, ?_, ?_, ?_, ?_⟩, ?_, ?_, ?_, fun _ => rfl, rfl, by simp⟩
  · intro t task l htask hl
    cases t with
    | zero =>
      obtain rfl := Option.some.inj htask
      simp [presenterTask, Phase.line?] at hl
    | succ t => simp at htask
  · simp
  · simp
  · simp [Relay.fresh]
  · refine .unplaced false rfl (by simp) (by simp) rfl rfl (Or.inr ?_)
    unfold sharer
    rw [hpresenting]
    cases fresh <;> rfl
  · exact .idle [] rfl (Or.inl ⟨rfl, rfl⟩) rfl
  · rw [present_sharer presenter observer actions fresh ids]
    simp [start]

end Start

end Broadcast

/-! ## The law of sharing -/

/-- A presenter shares any script that actions have made, with an empty one in its place or not;
then it submits lines, names its script and stops, while an observer follows links, and the clients,
their tasks and the relay work, all in any order. At any time the observer's script is made by the
first of the lines that the presenter passes on, and the presenter's by these and the lines that
are never passed on. While the presenter has a line its session can be joined, and a call is let in
exactly if there is the session it asks for. An observer that watches no more has all the lines
passed on, if it was let in, and none if it was not. When nobody has anything left to do, no
session is left: the relay holds no end by which it could send more to a presenter than its id, so
each session of a presenter ends by itself. The two scripts are the same then exactly if the lines
that are never passed on would change nothing. -/
theorem broadcasts_converge (presenter observer : Config) (actions : List Action) (fresh : Bool)
    (ids : SessionIds) (moves : List Move) :
    let b := moves.foldl Broadcast.move (.start presenter observer actions fresh ids)
    ∃ p o : Station, b.network.stations = [p, o] ∧
      p.client.present.bare = scriptOf (b.relayed ++ b.unheard) ∧
      (∃ k, o.client.present.bare = scriptOf (b.relayed.take k)) ∧
      (p.client.presenting.isSome = true → b.unheard = []) ∧
      (∀ generation id l, p.client.presenting = some ⟨generation, some id, .open l⟩ →
        (b.network.relay.session? id).isSome = true) ∧
      (∀ id l, b.network.asks id l →
        ((b.move (.attend l)).joined = true ↔ (b.network.relay.session? id).isSome = true)) ∧
      (o.client.watching = none →
        o.client.present.bare = scriptOf (if b.joined then b.relayed else [])) ∧
      (b.network.AtRest → p.client.presenting = none ∧ o.client.watching = none) ∧
      (b.joined = true → b.network.AtRest ∨ o.client.watching = none →
        (o.client.present.bare = p.client.present.bare ↔
          scriptOf b.relayed = scriptOf (b.relayed ++ b.unheard))) := by
  intro b
  obtain ⟨x, p, pin, o, oin, stage, h⟩ := Broadcast.sound_run moves
    (Broadcast.sound_start presenter observer actions fresh ids)
  change b.Sound x p pin o oin stage at h
  have hrest : b.network.AtRest → p.presenting = none ∧ o.watching = none := by
    intro hrest
    rw [h.network] at hrest
    obtain ⟨hover, hnone⟩ := h.presents.at_rest h.orderly hrest
    have hobserves := h.observes
    rw [hover] at hobserves
    exact ⟨hnone, hobserves.at_rest hrest⟩
  have hend : o.watching = none → o.present.bare = scriptOf (if b.joined then b.relayed else []) :=
    fun hwatching => (h.observes.at_end hwatching).2
  refine ⟨⟨p, pin, .relay⟩, ⟨o, oin, .relay⟩, by rw [h.network]; rfl, h.script,
    h.observes.is_prefix h.presents, h.unheard, fun _ _ _ => h.session_of_open,
    fun _ _ => h.joined_iff, hend, hrest, ?_⟩
  intro hjoined hdone
  have hwatching : o.watching = none := hdone.elim (fun hat => (hrest hat).2) id
  have hsame := hend hwatching
  rw [hjoined, if_pos rfl] at hsame
  show o.present.bare = p.present.bare ↔ _
  rw [hsame, h.script]

/-- The presenter never stops, and submits one line before it hears that nothing more will come from
the relay and one line after that; the observer has been let in before. -/
def movesWithoutStop : List Move :=
  [.work 0, .attend 0, .work 0, .process 0, .submit "rt 90\n", .work 0, .watch counted.first, .work 1,
    .attend 1, .process 0, .submit "fd 10\n", .attend 0, .attend 0, .work 1, .work 1, .process 1,
    .process 1, .process 1]

theorem second_line_is_lost :
    let b := movesWithoutStop.foldl Broadcast.move (.start .default .default [] true counted)
    Move.stop ∉ movesWithoutStop ∧ b.joined = true ∧ b.relayed = ["rt 90\n"] ∧
      b.unheard = ["fd 10\n"] ∧ ∃ p o : Station, b.network.stations = [p, o] ∧
        o.client.watching = none ∧ o.client.present.bare ≠ p.client.present.bare := by
  intro b
  have hjoined : b.joined = true := by decide +kernel
  have hrelayed : b.relayed = ["rt 90\n"] := by decide +kernel
  have hunheard : b.unheard = ["fd 10\n"] := by decide +kernel
  have hnone : b.network.stations.map (·.client.watching) = [none, none] := by decide +kernel
  obtain ⟨p, o, hstations, -, -, -, -, -, -, -, hsame⟩ :=
    broadcasts_converge .default .default [] true counted movesWithoutStop
  have hwatching : o.client.watching = none := by
    have hboth := hnone
    rw [show b.network.stations = [p, o] from hstations] at hboth
    simpa using (List.cons.inj (List.cons.inj hboth).2).1
  refine ⟨by decide, hjoined, hrelayed, hunheard, p, o, hstations, hwatching, ?_⟩
  intro heq
  have hscripts : scriptOf b.relayed = scriptOf (b.relayed ++ b.unheard) :=
    (hsame hjoined (Or.inr hwatching)).mp heq
  rw [hrelayed, hunheard] at hscripts
  have hsizes : (scriptOf ["rt 90\n"]).tokens.size ≠
      (scriptOf (["rt 90\n"] ++ ["fd 10\n"])).tokens.size := by decide +kernel
  exact hsizes (congrArg (fun s => s.tokens.size) hscripts)

end TurtleScript
