-- What the observer, its task and its attendant do to its side of a session:
-- whatever the relay has told it comes to it in the same order, and it deals
-- with all of it before it stops watching.
import TurtleScript.Proofs.Sharing.Observing
import TurtleScript.Proofs.Sharing.Serving

namespace TurtleScript

namespace Exchange

section Observes

variable {x y : Exchange} {o o' : Client} {oin oin' : List Event} {texts texts' : List String}
  {joined : Bool} {stage stage' : Stage} {latest l : Nat} {id : String} {phase : Phase}

/-! ## Turns of the observer -/

theorem isWatching_eq_false {c : Client} {generation : Nat}
    (h : c.watching = none ∨ (∃ id, c.watching = some ⟨c.generation, id⟩) ∧ c.generation ≠ generation) :
    c.isWatching generation = false := by
  rcases h with hnone | ⟨⟨id, hsome⟩, hne⟩
  · simp [Client.isWatching, hnone]
  · simp [Client.isWatching, hsome, hne]

/-- Events that tell an observer nothing leave it as it is. -/
theorem ignores {c : Client} {event : Event} {generation : Nat}
    (hevent : event.watched? = some generation)
    (h : c.watching = none ∨
      (∃ id, c.watching = some ⟨c.generation, id⟩) ∧ event.tells c.generation = false) :
    (c.process event).effects = [] ∧ c.SameSeat (c.process event).client ∧
      (c.process event).client.present = c.present := by
  have hstay : c.stay.effects = [] ∧ c.SameSeat c.stay.client ∧ c.stay.client.present = c.present :=
    ⟨rfl, ⟨rfl, rfl, rfl⟩, rfl⟩
  have hfalse : ∀ g, event.tells c.generation = decide (g = c.generation) →
      c.isWatching g = false := by
    intro g htells
    apply isWatching_eq_false
    refine h.imp_right (fun hsome => ⟨hsome.1, ?_⟩)
    rintro rfl
    simp [hsome.2] at htells
  cases event with
  | observerJoined g => exact Client.joined_turn c g
  | remote g action =>
    rw [Client.remote_ignored (hfalse g rfl)]
    exact hstay
  | sessionClosed role g =>
    cases role with
    | presenter => simp [Event.watched?] at hevent
    | observer =>
      rw [Client.closed_ignored (hfalse g rfl)]
      exact hstay
  | _ => simp [Event.watched?] at hevent

theorem remotes_eq_cons {generation : Nat} {event : Event} {heard : List String} {rest : List Event}
    (h : event :: rest = remotes generation heard) :
    ∃ text heard', heard = text :: heard' ∧ event = .remote generation (.submit text) ∧
      rest = remotes generation heard' := by
  cases heard with
  | nil => simp [remotes] at h
  | cons text heard =>
    simp only [remotes, List.map_cons, List.cons.injEq] at h
    exact ⟨text, heard, rfl, h.1, h.2⟩

/-- Giving up a task of the observer is nothing to the presenter. -/
theorem spares_giveUp {cancelled : Bool} (h : x.tasks[0]? = some (presenterTask phase cancelled))
    (generation : Nat) : x.Spares (x.giveUp 1 generation) 0 where
  callers := fun _ => Iff.rfl
  lines := fun _ _ => rfl
  task := by
    rw [getElem?_giveUp, h]
    rfl

theorem bare_submit_of_bare {c : Client} {seen : List String} (h : c.present.bare = scriptOf seen)
    (text : String) :
    (c.dispatch (.submit text)).client.present.bare = scriptOf (seen ++ [text]) := by
  rw [Client.present_dispatch c rfl, scriptOf_append, ← h]
  exact Script.bare_submit c.present text

/-- A line of script that is told to an observer is submitted by it. -/
theorem Tunes.submits (h : x.Tunes o id phase) (hpresenting : o.presenting = none)
    {seen : List String} (hscript : o.present.bare = scriptOf seen) (text : String) :
    let turn := o.process (.remote o.generation (.submit text))
    turn.effects = [] ∧ turn.client.presenting = none ∧ turn.client.generation = o.generation ∧
      x.Tunes turn.client id phase ∧ turn.client.present.bare = scriptOf (seen ++ [text]) := by
  have hwatches : o.isWatching o.generation = true := by
    simp [Client.isWatching, h.watching]
  rw [Client.remote_submit hwatches]
  obtain ⟨heffects, hseat⟩ := Client.submit_turn hpresenting text
  exact ⟨heffects, hseat.presenting.trans hpresenting, hseat.generation,
    h.same hseat.watching hseat.generation, bare_submit_of_bare hscript text⟩

/-- The observer deals with its next event. -/
theorem Observes.processes {event : Event} {generation : Nat} {presents : Phase} {cancelled : Bool}
    (h : x.Observes o (event :: oin) texts joined stage) (hx : x.Orderly o.generation)
    (hpresenting : o.presenting = none) (hevent : event.watched? = some generation)
    (htask : x.tasks[0]? = some (presenterTask presents cancelled)) (p : Client)
    (pin : List Event) :
    ∃ y o', ((x.network p pin o (event :: oin)).process? 1).map (·.1) =
        some (y.network p pin o' oin) ∧
      y.Orderly o.generation ∧ x.Spares y 0 ∧ y.relay.sessions = x.relay.sessions ∧
      o'.presenting = none ∧ o'.generation = o.generation ∧ y.Observes o' oin texts joined stage := by
  rw [network, Network.pair_process_one]
  by_cases htells : o.watching = none ∨
      (∃ id, o.watching = some ⟨o.generation, id⟩) ∧ event.tells o.generation = false
  · obtain ⟨heffects, hseat, hpresent⟩ := ignores hevent htells
    rw [heffects]
    refine ⟨x, (o.process event).client, rfl, hx, x.spares_self 0, rfl,
      hseat.presenting.trans hpresenting, hseat.generation, ?_⟩
    refine h.same hseat.watching hseat.generation hpresent ?_
    intro hsome
    rcases htells with hnone | ⟨-, hfalse⟩
    · exact absurd hnone hsome
    · simp [news, hfalse]
  · have hnews : ∀ {id phase}, x.Tunes o id phase →
        news o.generation (event :: oin) = event :: news o.generation oin := by
      intro id phase htunes
      have htrue : event.tells o.generation = true := by
        cases hvalue : event.tells o.generation with
        | false => exact absurd (Or.inr ⟨⟨id, htunes.watching⟩, hvalue⟩) htells
        | true => rfl
      simp [news, htrue]
    cases h with
    | idle got hnone => exact absurd (Or.inl hnone) htells
    | calling id htunes hjoined hempty => simp [hnews htunes] at hempty
    | asking id l htunes hjoined hempty => simp [hnews htunes] at hempty
    | following id l log ws seen heard coming up attendant htunes hjoined hstage hl hline hgreeted hold
        hscript hlog =>
      rw [hnews htunes] at hold
      obtain ⟨text, heard', rfl, hremote, hrest⟩ := remotes_eq_cons hold
      subst hremote
      obtain ⟨heffects, hquiet, hgeneration, htunes', hscript'⟩ :=
        htunes.submits hpresenting hscript text
      rw [heffects]
      refine ⟨x, _, rfl, hx, x.spares_self 0, rfl, hquiet, hgeneration, ?_⟩
      exact .following id l log ws (seen ++ [text]) heard' coming up attendant htunes' hjoined hstage
        hl hline hgreeted (by rw [hgeneration, hrest]) hscript' (by rw [hlog]; simp)
    | finishing id l seen heard coming up attendant htunes htold hline hgreeted hattendant hold
        hscript =>
      rw [hnews htunes] at hold
      obtain ⟨text, heard', rfl, hremote, hrest⟩ := remotes_eq_cons hold
      subst hremote
      obtain ⟨heffects, hquiet, hgeneration, htunes', hscript'⟩ :=
        htunes.submits hpresenting hscript text
      rw [heffects]
      refine ⟨x, _, rfl, hx, x.spares_self 0, rfl, hquiet, hgeneration, ?_⟩
      refine .finishing id l (seen ++ [text]) heard' coming up attendant htunes' ?_ hline hgreeted
        hattendant (by rw [hgeneration, hrest]) hscript'
      simpa using htold
    | ended id seen heard htunes htold hold hscript =>
      rw [hnews htunes] at hold
      cases heard with
      | nil =>
        simp only [remotes, List.map_nil, List.nil_append, List.cons.injEq] at hold
        obtain ⟨rfl, hempty⟩ := hold
        obtain ⟨heffects, hquiet, hwatching, hgeneration⟩ :=
          Client.closed_watching htunes.watching rfl
        rw [heffects]
        refine ⟨x.giveUp 1 o.generation, _, rfl, hx.giveUp 1 _, spares_giveUp htask _, rfl,
          hquiet.trans hpresenting, hgeneration, ?_⟩
        refine .idle seen hwatching (by simpa using htold) ?_
        rw [Client.present_closed o .observer]
        exact hscript
      | cons text heard' =>
        simp only [remotes, List.map_cons, List.cons_append, List.cons.injEq] at hold
        obtain ⟨hremote, hrest⟩ := hold
        subst hremote
        obtain ⟨heffects, hquiet, hgeneration, htunes', hscript'⟩ :=
          htunes.submits hpresenting hscript text
        rw [heffects]
        refine ⟨x, _, rfl, hx, x.spares_self 0, rfl, hquiet, hgeneration, ?_⟩
        exact .ended id (seen ++ [text]) heard' htunes' (by simpa using htold)
          (by rw [hgeneration]; exact hrest) hscript'

theorem Observes.watching_cases (h : x.Observes o oin texts joined stage) :
    o.watching = none ∨ ∃ id phase, x.Tunes o id phase := by
  cases h with
  | idle got hnone => exact Or.inl hnone
  | calling id htunes => exact Or.inr ⟨_, _, htunes⟩
  | asking id l htunes => exact Or.inr ⟨_, _, htunes⟩
  | following id l log ws seen heard coming up attendant htunes => exact Or.inr ⟨_, _, htunes⟩
  | finishing id l seen heard coming up attendant htunes => exact Or.inr ⟨_, _, htunes⟩
  | ended id seen heard htunes => exact Or.inr ⟨_, _, htunes⟩

/-- An observer that follows a link begins anew. -/
theorem Observes.watches {presents : Phase} {cancelled : Bool}
    (h : x.Observes o oin texts joined stage) (hx : x.Orderly o.generation)
    (hpresenting : o.presenting = none)
    (hinbox : ∀ e ∈ oin, ∃ g, e.watched? = some g ∧ g ≤ o.generation)
    (htask : x.tasks[0]? = some (presenterTask presents cancelled)) (url : String) (p : Client)
    (pin : List Event) :
    ∃ y o', ((x.network p pin o oin).dispatch 1 (.tryStartWatching url)).1 = y.network p pin o' oin ∧
      y.Orderly o'.generation ∧ x.Spares y 0 ∧ y.relay.sessions = x.relay.sessions ∧
      o'.presenting = none ∧ o.generation ≤ o'.generation ∧
      y.Observes o' oin texts (joined && !(watchingId? url).isSome) stage := by
  rw [network, Network.pair_dispatch_one]
  cases hurl : watchingId? url with
  | none =>
    obtain ⟨heffects, hseat, hpresent⟩ := Client.watch_nowhere hurl (c := o)
    rw [heffects]
    refine ⟨x, _, rfl, hseat.generation ▸ hx, x.spares_self 0, rfl,
      hseat.presenting.trans hpresenting, hseat.generation.ge, ?_⟩
    have hjoined : (joined && !(none : Option String).isSome) = joined := by simp
    rw [hjoined]
    exact h.same hseat.watching hseat.generation hpresent (fun _ => rfl)
  | some id =>
    obtain ⟨heffects, hquiet, hwatching, hgeneration, hpresent⟩ :=
      Client.watch_somewhere hurl (c := o)
    have hbegin : ∀ z : Exchange, z.Orderly o.generation → x.Spares z 0 →
        z.relay.sessions = x.relay.sessions →
        (z.enlist (o.generation + 1) id).Orderly (o.generation + 1) ∧
          x.Spares (z.enlist (o.generation + 1) id) 0 ∧
          (z.enlist (o.generation + 1) id).relay.sessions = x.relay.sessions ∧
          (z.enlist (o.generation + 1) id).Observes
            (o.dispatch (.tryStartWatching url)).client oin texts false stage := by
      intro z hz hspares hsessions
      refine ⟨hz.enlist id, hspares.trans (hz.spares_enlist id (Nat.zero_le _)), hsessions, ?_⟩
      refine .calling id ⟨hgeneration ▸ hwatching, ?_⟩ rfl ?_ (congrArg Script.bare hpresent)
      · rw [hgeneration]
        exact (getElem?_snoc ..).mpr (Or.inr ⟨hz.tasks.symm, rfl⟩)
      · apply news_of_others
        intro e he
        obtain ⟨g, hwatched, hg⟩ := hinbox e he
        exact ⟨g, hwatched, by omega⟩
    have hjoined : (joined && !(some id).isSome) = false := by simp
    rw [heffects, hjoined]
    rcases h.watching_cases with hnone | ⟨id', phase, htunes⟩
    · obtain ⟨horderly, hspares, hsessions, hobserves⟩ := hbegin x hx (x.spares_self 0) rfl
      refine ⟨x.enlist (o.generation + 1) id, (o.dispatch (.tryStartWatching url)).client, ?_,
        hgeneration ▸ horderly, hspares, hsessions, hquiet.trans hpresenting, by omega, hobserves⟩
      rw [hnone]
      rfl
    · obtain ⟨horderly, hspares, hsessions, hobserves⟩ :=
        hbegin (x.giveUp 1 o.generation) (hx.giveUp 1 _) (spares_giveUp htask _) rfl
      refine ⟨(x.giveUp 1 o.generation).enlist (o.generation + 1) id,
        (o.dispatch (.tryStartWatching url)).client, ?_, hgeneration ▸ horderly, hspares, hsessions,
        hquiet.trans hpresenting, by omega, hobserves⟩
      rw [htunes.watching]
      rfl

/-! ## The work of the observer's task -/

/-- The task of the observer takes a line of script from its line, and tells it. -/
theorem Tunes.hears {p : Client} {pin : List Event} {text : String} {coming : List String}
    {up : Pipe} {hasSender : Bool} {attendant : Attendant} (h : x.Tunes o id (.listening l))
    (hx : x.Orderly o.generation)
    (hline : x.relay.lines[l]? =
      some ⟨⟨up, ⟨(text :: coming).map shownText, hasSender, true⟩⟩, attendant⟩) :
    ∃ y, (x.network p pin o oin).lag o.generation =
        some (y.network p pin o (oin ++ [.remote o.generation (.submit text)])) ∧
      y.Orderly o.generation ∧ (∀ u, u ≠ o.generation → x.Spares y u) ∧
      y.relay.sessions = x.relay.sessions ∧ y.Tunes o id (.listening l) ∧
      y.relay.lines[l]? = some ⟨⟨up, ⟨coming.map shownText, hasSender, true⟩⟩, attendant⟩ := by
  let link : Link := ⟨up, ⟨(text :: coming).map shownText, hasSender, true⟩⟩
  refine ⟨x.onLink l fun _ => link.heardNear (coming.map shownText), ?_, hx.hear hline _,
    fun u hu => spares_onLink (h.caller hx rfl) _ hu, rfl, ⟨h.watching, h.task⟩,
    Relay.getElem?_onLink_self hline _⟩
  rw [network, Network.lag_listen h.task (Or.inr rfl), Network.listen_message hline rfl]
  exact congrArg some Network.hear_shown

/-- What the task of the observer hears comes to the observer in the same order. -/
theorem Observes.works {p : Client} {pin : List Event} (h : x.Observes o oin texts joined stage)
    (hx : x.Orderly o.generation) (hwatching : o.watching ≠ none) {n : Network}
    (hn : (x.network p pin o oin).lag o.generation = some n) :
    ∃ y events, n = y.network p pin o (oin ++ events) ∧ y.Orderly o.generation ∧
      (∀ u, u ≠ o.generation → x.Spares y u) ∧ y.relay.sessions = x.relay.sessions ∧
      (∀ e ∈ events, e.watched? = some o.generation) ∧
      y.Observes o (oin ++ events) texts joined stage := by
  have hnews : ∀ text, news o.generation (oin ++ [.remote o.generation (.submit text)]) =
      news o.generation oin ++ [.remote o.generation (.submit text)] := by
    intro text
    rw [news_append]
    simp [news, Event.tells]
  have hwatched : ∀ text, ∀ e ∈ [Event.remote o.generation (.submit text)],
      e.watched? = some o.generation := by
    simp [Event.watched?]
  cases h with
  | idle got hnone => exact absurd hnone hwatching
  | calling id htunes hjoined hold hscript =>
    rw [network, Network.lag_watch htunes.task, Option.some.injEq] at hn
    refine ⟨x.ask o.generation id, [.observerJoined o.generation], hn.symm,
      hx.ask o.generation id, fun u hu => hx.spares_ask id hu, rfl, by simp [Event.watched?], ?_⟩
    refine .asking id x.relay.lines.length ⟨htunes.watching, getElem?_advanced_self htunes.task _⟩
      hjoined ?_ hscript ((getElem?_snoc ..).mpr (Or.inr ⟨rfl, rfl⟩))
    rw [news_append, hold]
    rfl
  | asking id l htunes hjoined hold hscript hline =>
    rw [network, Network.lag_listen htunes.task (Or.inr rfl), Network.listen_silent hline rfl] at hn
    simp [Pipe.fresh, Pipe.takesMore] at hn
  | following id l log ws seen heard coming up attendant htunes hjoined hstage hl hline hgreeted hold
      hscript hlog =>
    cases coming with
    | nil =>
      rw [network, Network.lag_listen htunes.task (Or.inr rfl), Network.listen_silent hline rfl] at hn
      simp [Pipe.takesMore] at hn
    | cons text coming =>
      obtain ⟨y, hy, horderly, hspares, hsessions, htunes', hline'⟩ := htunes.hears hx hline
      rw [hy, Option.some.injEq] at hn
      refine ⟨y, _, hn.symm, horderly, hspares, hsessions, hwatched text, ?_⟩
      refine .following id l log ws seen (heard ++ [text]) coming up attendant htunes' hjoined hstage
        hl hline' hgreeted ?_ hscript (by rw [hlog]; simp)
      rw [hnews, hold]
      simp [remotes]
  | finishing id l seen heard coming up attendant htunes htold hline hgreeted hattendant hold
      hscript =>
    cases coming with
    | nil =>
      rw [network, Network.lag_ended_watching htunes.task hline rfl rfl, Option.some.injEq] at hn
      refine ⟨x.depart o.generation l, [.sessionClosed .observer o.generation], hn.symm,
        hx.depart o.generation l, fun u hu => spares_depart (htunes.caller hx rfl) hu, rfl,
        by simp [Event.watched?], ?_⟩
      refine .ended id seen heard ⟨htunes.watching, getElem?_advanced_self htunes.task _⟩
        (by simpa using htold) ?_ hscript
      rw [news_append, hold]
      simp [news, Event.tells]
    | cons text coming =>
      obtain ⟨y, hy, horderly, hspares, hsessions, htunes', hline'⟩ := htunes.hears hx hline
      rw [hy, Option.some.injEq] at hn
      refine ⟨y, _, hn.symm, horderly, hspares, hsessions, hwatched text, ?_⟩
      refine .finishing id l seen (heard ++ [text]) coming up attendant htunes' (by simpa using htold)
        hline' hgreeted hattendant ?_ hscript
      rw [hnews, hold]
      simp [remotes]
  | ended id seen heard htunes htold hold hscript =>
    rw [network, Network.lag_finished htunes.task rfl] at hn
    simp at hn

/-! ## The attendants of watchers -/

/-- What can come of a step on the line of a watcher, for the session that there is: the caller is
refused, or gets all of the log and is one of those who watch; or it leaves. -/
inductive WatcherTurn (l : Nat) (line : Line) (r : Relay) (stage : Stage) : Stage → Prop
  | refused (link : Link) : line.attendant = .greeting → r.lines[l]? = some ⟨link, .gone⟩ →
      link.down = line.link.down.hangUp → WatcherTurn l line r stage stage
  | joined (log : List String) (ws : List Nat) (link : Link) : line.attendant = .greeting →
      stage = .live log ws → r.lines[l]? = some ⟨link, .watching⟩ →
      link.down = { line.link.down with waiting := line.link.down.waiting ++ log.map shownText } →
      WatcherTurn l line r stage (.live log (ws ++ [l]))
  | left (link : Link) : line.attendant ≠ .greeting → r.lines[l]? = some ⟨link, .gone⟩ →
      link.down = line.link.down → WatcherTurn l line r stage stage

theorem Presents.watcher_attended {slot : Option Presenting} {pin : List Event} {r : Relay}
    {line : Line} {t : Nat} (h : x.Presents slot pin texts stage)
    (hl : x.callers[l]? = some (t + 1)) (htouches : x.relay.Touches r l)
    (hstep : x.relay.WatcherStep l line r) :
    ∃ stage', (x.answer r).Presents slot pin texts stage' ∧ WatcherTurn l line r stage stage' := by
  have hspares : x.Spares (x.answer r) 0 := spares_answer hl htouches (by omega)
  cases hstep with
  | refused link hgreeting hsessions hline hdown =>
    exact ⟨stage, h.spared hspares hsessions, .refused link hgreeting hline hdown⟩
  | joined id s link hgreeting hsession hsessions hline hup hdown =>
    obtain ⟨log, ws, hstage, hlog, hnext⟩ := h.joined hspares hsession hsessions
    exact ⟨_, hnext, .joined log ws link hgreeting hstage hline (by rw [hdown, hlog])⟩
  | left link hwatching hsessions hline hdown =>
    exact ⟨stage, h.spared hspares hsessions, .left link (by simp [hwatching]) hline hdown⟩

theorem WatcherTurn.widens {line : Line} {r : Relay} (h : WatcherTurn l line r stage stage') :
    Widens stage texts stage' texts := by
  cases h with
  | refused => exact widens_self stage fun _ => rfl
  | joined log ws link hgreeting hstage =>
    subst hstage
    refine ⟨by simp, ?_⟩
    intro log' ws' hlive
    cases hlive
    exact ⟨ws ++ [l], rfl, fun m hm => List.mem_append_left _ hm⟩
  | left => exact widens_self stage fun _ => rfl

/-- An observer whose call is answered is let in, with all lines so far on their way to it, or it
gets nothing at all. -/
theorem Observes.attended {line : Line} {r : Relay} (h : x.Observes o oin texts joined stage)
    (hline : x.relay.lines[l]? = some line) (htouches : x.relay.Touches r l)
    (hturn : WatcherTurn l line r stage stage') :
    ∃ joined', (x.answer r).Observes o oin texts joined' stage' ∧ (joined' = joined ∨
      joined' = true ∧ ∃ id link, (x.answer r).Tunes o id (.listening l) ∧
        r.lines[l]? = some ⟨link, .watching⟩) := by
  have hwidens : Widens stage texts stage' texts := hturn.widens
  have hother : ∀ {m : Nat} {line' : Line}, m ≠ l → x.relay.lines[m]? = some line' →
      r.lines[m]? = some line' := fun hm hline' => (htouches.others _ hm).trans hline'
  cases h with
  | idle got hnone htold hscript =>
    exact ⟨joined, .idle got hnone (htold.widens hwidens) hscript, Or.inl rfl⟩
  | calling id htunes hjoined hnews hscript =>
    exact ⟨joined, .calling id (htunes.answer r) hjoined hnews hscript, Or.inl rfl⟩
  | asking id m htunes hjoined hnews hscript hasks =>
    by_cases hm : m = l
    · subst hm
      obtain rfl := Option.some.inj (hline.symm.trans hasks)
      cases hturn with
      | refused link hgreeting hline' hdown =>
        obtain ⟨up, down⟩ := link
        cases hdown
        exact ⟨joined, .finishing id m [] [] [] up .gone (htunes.answer r)
          (Or.inl ⟨hjoined, rfl⟩) hline' (by simp) (by simp) hnews hscript, Or.inl rfl⟩
      | joined log ws link hgreeting hstage hline' hdown =>
        refine ⟨true, ?_, Or.inr ⟨rfl, id, link, htunes.answer r, hline'⟩⟩
        obtain ⟨up, down⟩ := link
        cases hdown
        exact .following id m log (ws ++ [m]) [] [] log up .watching (htunes.answer r) rfl rfl
          (List.mem_append_right _ (List.mem_singleton.mpr rfl)) hline' (by simp) hnews hscript rfl
      | left link hgreeted => exact absurd rfl hgreeted
    · exact ⟨joined, .asking id m (htunes.answer r) hjoined hnews hscript (hother hm hasks),
        Or.inl rfl⟩
  | following id m log ws seen heard coming up attendant htunes hjoined hstage hl hfollows hgreeted
      hnews hscript hlog =>
    obtain ⟨vs, hstage', hsub⟩ := hwidens.live log ws hstage
    by_cases hm : m = l
    · subst hm
      obtain rfl := Option.some.inj (hline.symm.trans hfollows)
      cases hturn with
      | refused link hgreeting => exact absurd hgreeting hgreeted
      | joined log ws link hgreeting => exact absurd hgreeting hgreeted
      | left link hgreeted hline' hdown =>
        obtain ⟨up', down⟩ := link
        cases hdown
        exact ⟨joined, .following id m log vs seen heard coming up' .gone (htunes.answer r) hjoined
          hstage' (hsub m hl) hline' (by simp) hnews hscript hlog, Or.inl rfl⟩
    · exact ⟨joined, .following id m log vs seen heard coming up attendant (htunes.answer r) hjoined
        hstage' (hsub m hl) (hother hm hfollows) hgreeted hnews hscript hlog, Or.inl rfl⟩
  | finishing id m seen heard coming up attendant htunes htold hfinishes hgreeted hattendant hnews
      hscript =>
    by_cases hm : m = l
    · subst hm
      obtain rfl := Option.some.inj (hline.symm.trans hfinishes)
      cases hturn with
      | refused link hgreeting => exact absurd hgreeting hgreeted
      | joined log ws link hgreeting => exact absurd hgreeting hgreeted
      | left link hgreeted hline' hdown =>
        obtain ⟨up', down⟩ := link
        cases hdown
        exact ⟨joined, .finishing id m seen heard coming up' .gone (htunes.answer r)
          (htold.widens hwidens) hline' (by simp) (by simp) hnews hscript, Or.inl rfl⟩
    · exact ⟨joined, .finishing id m seen heard coming up attendant (htunes.answer r)
        (htold.widens hwidens) (hother hm hfinishes) hgreeted hattendant hnews hscript, Or.inl rfl⟩
  | ended id seen heard htunes htold hnews hscript =>
    exact ⟨joined, .ended id seen heard (htunes.answer r) (htold.widens hwidens) hnews hscript,
      Or.inl rfl⟩

/-! ## Being attended to -/

theorem isAttended_of_watching {p : Client} {pin : List Event} {link : Link}
    (h : x.Tunes o id (.listening l)) (hline : x.relay.lines[l]? = some ⟨link, .watching⟩) :
    (x.network p pin o oin).isAttended = true := by
  unfold Network.isAttended
  rw [List.any_eq_true]
  refine ⟨_, List.mem_of_getElem? h.task, ?_⟩
  simp [Network.watches, network, Network.pair, watcherTask, Client.isWatching, h.watching, hline]

/-- The task of the session that the observer watches is the latest one. -/
theorem task_of_watches {p : Client} {pin : List Event} {presents : Phase} {cancelled : Bool}
    {task : Task} (hx : x.Orderly latest)
    (htask : x.tasks[0]? = some (presenterTask presents cancelled)) (htunes : x.Tunes o id phase)
    (hmem : task ∈ x.tasks) (hwatches : (x.network p pin o oin).watches task = true) :
    task = watcherTask o.generation id phase false := by
  obtain ⟨t, ht⟩ := List.getElem?_of_mem hmem
  cases t with
  | zero =>
    have hpresenter := Option.some.inj (ht.symm.trans htask)
    subst hpresenter
    simp [Network.watches, presenterTask] at hwatches
  | succ t =>
    obtain ⟨id', phase', cancelled', rfl, -⟩ := hx.watchers t task ht
    simp [Network.watches, network, Network.pair, watcherTask, Client.isWatching, htunes.watching]
      at hwatches
    have hgeneration : o.generation = t + 1 := of_decide_eq_true hwatches
    have hsame := htunes.task
    rw [hgeneration] at hsame ⊢
    exact Option.some.inj (ht.symm.trans hsame)

theorem phase_of_isAttended {p : Client} {pin : List Event} {presents : Phase} {cancelled : Bool}
    (hx : x.Orderly latest) (htask : x.tasks[0]? = some (presenterTask presents cancelled))
    (htunes : x.Tunes o id phase) (hattended : (x.network p pin o oin).isAttended = true) :
    ∃ l link, phase = .listening l ∧ x.relay.lines[l]? = some ⟨link, .watching⟩ := by
  unfold Network.isAttended at hattended
  rw [List.any_eq_true] at hattended
  obtain ⟨task, hmem, hwatched⟩ := hattended
  rw [Bool.and_eq_true] at hwatched
  obtain ⟨hwatches, hlistens⟩ := hwatched
  rw [task_of_watches hx htask htunes hmem hwatches] at hlistens
  cases phase with
  | listening l =>
    refine ⟨l, ?_⟩
    cases hline : x.relay.lines[l]? with
    | none => simp [watcherTask, network, Network.pair, hline] at hlistens
    | some line =>
      obtain ⟨link, attendant⟩ := line
      simp [watcherTask, network, Network.pair, hline] at hlistens
      exact ⟨link, rfl, by rw [hlistens]⟩
  | _ => simp [watcherTask] at hlistens

/-- Whoever is attended to as a watcher has been let in. -/
theorem Observes.joined_of_isAttended {p : Client} {pin : List Event} {presents : Phase}
    {cancelled : Bool} (h : x.Observes o oin texts joined stage) (hx : x.Orderly latest)
    (htask : x.tasks[0]? = some (presenterTask presents cancelled))
    (hattended : (x.network p pin o oin).isAttended = true) : joined = true := by
  have hcurrent : ∀ {id phase}, x.Tunes o id phase →
      ∃ l link, phase = .listening l ∧ x.relay.lines[l]? = some ⟨link, .watching⟩ :=
    fun htunes => phase_of_isAttended hx htask htunes hattended
  cases h with
  | idle got hnone =>
    simp [Network.isAttended, Network.watches, network, Network.pair, Client.isWatching, hnone]
      at hattended
  | calling id htunes =>
    obtain ⟨l, link, hphase, -⟩ := hcurrent htunes
    simp at hphase
  | asking id l htunes hjoined hnews hscript hline =>
    obtain ⟨m, link, hphase, hwatching⟩ := hcurrent htunes
    obtain rfl := Phase.listening.inj hphase
    simp [hline] at hwatching
  | following id l log ws seen heard coming up attendant htunes hjoined => exact hjoined
  | finishing id l seen heard coming up attendant htunes htold hline hgreeted hattendant =>
    obtain ⟨m, link, hphase, hwatching⟩ := hcurrent htunes
    obtain rfl := Phase.listening.inj hphase
    rw [hline, Option.some.injEq, Line.mk.injEq] at hwatching
    exact hattendant hwatching.2
  | ended id seen heard htunes =>
    obtain ⟨l, link, hphase, -⟩ := hcurrent htunes
    simp at hphase

/-- An observer whose call is not answered yet has not been let in. -/
theorem Observes.asking_of_asks {p : Client} {pin : List Event} {presents : Phase}
    {cancelled : Bool} (h : x.Observes o oin texts joined stage) (hx : x.Orderly latest)
    (htask : x.tasks[0]? = some (presenterTask presents cancelled))
    (hasks : (x.network p pin o oin).asks id l) :
    x.Tunes o id (.listening l) ∧ joined = false ∧
      x.relay.lines[l]? = some ⟨⟨⟨[Relay.watchText id], true, true⟩, .fresh⟩, .greeting⟩ := by
  obtain ⟨task, hmem, hwatches, hpurpose, hphase, link, hline⟩ := hasks
  have hcurrent : ∀ {id phase}, x.Tunes o id phase → task = watcherTask o.generation id phase false :=
    fun htunes => task_of_watches hx htask htunes hmem hwatches
  have hgreeting : x.relay.lines[l]? = some ⟨link, .greeting⟩ := hline
  cases h with
  | idle got hnone =>
    simp [Network.watches, network, Network.pair, Client.isWatching, hnone] at hwatches
  | calling id' htunes =>
    rw [hcurrent htunes] at hphase
    simp [watcherTask] at hphase
  | asking id' l' htunes hjoined hnews hscript hasking =>
    rw [hcurrent htunes] at hphase hpurpose
    simp only [watcherTask, Phase.listening.injEq, Purpose.watch.injEq] at hphase hpurpose
    subst hphase hpurpose
    exact ⟨htunes, hjoined, hasking⟩
  | following id' l' log ws seen heard coming up attendant htunes hjoined hstage hl hfollows hgreeted =>
    rw [hcurrent htunes] at hphase
    simp only [watcherTask, Phase.listening.injEq] at hphase
    subst hphase
    rw [hgreeting, Option.some.injEq, Line.mk.injEq] at hfollows
    exact absurd hfollows.2.symm hgreeted
  | finishing id' l' seen heard coming up attendant htunes htold hfinishes hgreeted =>
    rw [hcurrent htunes] at hphase
    simp only [watcherTask, Phase.listening.injEq] at hphase
    subst hphase
    rw [hgreeting, Option.some.injEq, Line.mk.injEq] at hfinishes
    exact absurd hfinishes.2.symm hgreeted
  | ended id' seen heard htunes =>
    rw [hcurrent htunes] at hphase
    simp [watcherTask] at hphase

/-! ## What has come of it -/

/-- An observer that does not watch has dealt with all that it was told. -/
theorem Observes.at_end (h : x.Observes o oin texts joined stage) (hwatching : o.watching = none) :
    (joined = true → stage = .past) ∧
      o.present.bare = scriptOf (if joined then texts else []) := by
  cases h with
  | idle got hnone htold hscript =>
    rw [hscript]
    rcases htold with ⟨rfl, rfl⟩ | ⟨rfl, hover, rfl⟩
    · exact ⟨by simp, rfl⟩
    · exact ⟨fun _ => hover, rfl⟩
  | calling id htunes => exact absurd hwatching htunes.watching_ne_none
  | asking id l htunes => exact absurd hwatching htunes.watching_ne_none
  | following id l log ws seen heard coming up attendant htunes =>
    exact absurd hwatching htunes.watching_ne_none
  | finishing id l seen heard coming up attendant htunes =>
    exact absurd hwatching htunes.watching_ne_none
  | ended id seen heard htunes => exact absurd hwatching htunes.watching_ne_none

/-- At any time the observer's script is made by the first lines of the session. -/
theorem Observes.is_prefix {slot : Option Presenting} {pin : List Event}
    (h : x.Observes o oin texts joined stage) (hpresents : x.Presents slot pin texts stage) :
    ∃ k, o.present.bare = scriptOf (texts.take k) := by
  have htake : ∀ {seen rest got : List String}, got = seen ++ rest → got <+: texts →
      ∃ k, scriptOf seen = scriptOf (texts.take k) := by
    intro seen rest got hgot hprefix
    have hseen : seen <+: texts := (hgot ▸ List.prefix_append seen rest).trans hprefix
    exact ⟨seen.length, by rw [← List.prefix_iff_eq_take.mp hseen]⟩
  have htold : ∀ {got}, Told stage texts joined got → got <+: texts := by
    rintro got (⟨-, rfl⟩ | ⟨-, -, rfl⟩)
    · exact List.nil_prefix
    · exact List.prefix_rfl
  have hnil : ∃ k, scriptOf [] = scriptOf (texts.take k) := ⟨0, rfl⟩
  cases h with
  | idle got hnone hgot hscript =>
    rw [hscript]
    exact htake (List.append_nil got).symm (htold hgot)
  | calling id htunes hjoined hnews hscript => rwa [hscript]
  | asking id l htunes hjoined hnews hscript => rwa [hscript]
  | following id l log ws seen heard coming up attendant htunes hjoined hstage hl hline hgreeted hnews
      hscript hlog =>
    rw [hscript]
    exact htake (hlog.trans (List.append_assoc ..)) (hpresents.log_prefix hstage)
  | finishing id l seen heard coming up attendant htunes hgot hline hgreeted hattendant hnews
      hscript =>
    rw [hscript]
    exact htake (List.append_assoc ..) (htold hgot)
  | ended id seen heard htunes hgot hnews hscript =>
    rw [hscript]
    exact htake rfl (htold hgot)

/-- Once the session is over and nobody has anything left to do, the observer does not watch. -/
theorem Observes.at_rest {p : Client} {pin : List Event}
    (h : x.Observes o oin texts joined .past) (hrest : (x.network p pin o oin).AtRest) :
    o.watching = none := by
  obtain ⟨hprocess, hwork, hattend⟩ := hrest
  have hlag : ∀ {id phase}, x.Tunes o id phase → (x.network p pin o oin).lag o.generation = none :=
    fun htunes => (Network.work_eq_lag htunes.task rfl).symm.trans (hwork o.generation)
  cases h with
  | idle got hnone => exact hnone
  | calling id htunes =>
    have hcalls := hlag htunes
    rw [network, Network.lag_watch htunes.task] at hcalls
    simp at hcalls
  | asking id l htunes hjoined hnews hscript hline =>
    have hanswer := hattend l
    rw [network, Network.pair_attend, Relay.attend_message hline (by simp) (by simp) rfl] at hanswer
    simp at hanswer
  | following id l log ws seen heard coming up attendant htunes hjoined hstage => simp at hstage
  | finishing id l seen heard coming up attendant htunes htold hline =>
    have hhears := hlag htunes
    cases coming with
    | nil =>
      rw [network, Network.lag_ended_watching htunes.task hline rfl rfl] at hhears
      simp at hhears
    | cons text coming =>
      rw [network, Network.lag_listen htunes.task (Or.inr rfl), Network.listen_message hline rfl]
        at hhears
      simp at hhears
  | ended id seen heard htunes htold hnews =>
    cases oin with
    | nil => simp [news] at hnews
    | cons event oin =>
      have hnone := hprocess 1
      simp [network, Network.pair, Network.process?] at hnone

end Observes

end Exchange

end TurtleScript
