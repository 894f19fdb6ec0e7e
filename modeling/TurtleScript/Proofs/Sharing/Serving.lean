-- What the presenter's task and the presenter's attendant do to its side of
-- the session. The task hears the id of the session and then, at once, that
-- nothing more will come.
import TurtleScript.Proofs.Sharing.Presenting

namespace TurtleScript

namespace Exchange

section Presents

variable {x y : Exchange} {slot : Option Presenting} {pin : List Event} {texts : List String}
  {stage : Stage} {l : Nat} {id : String} {log sent : List String} {ws : List Nat} {held : Bool}
  {latest : Nat} {p o : Client} {oin : List Event}

/-! ## The work of the presenter's task -/

theorem presenterTask_inj {phase phase' : Phase} {cancelled cancelled' : Bool}
    (h : x.tasks[0]? = some (presenterTask phase cancelled))
    (h' : x.tasks[0]? = some (presenterTask phase' cancelled')) :
    phase = phase' ∧ cancelled = cancelled' := by
  rw [h] at h'
  simpa [presenterTask] using h'

theorem Orderly.goes_finished (h : x.Orderly latest) : x.Goes (x.advance 0 .finished) latest :=
  h.goes_advance (by simp [Phase.line?])

theorem Orderly.goes_abandon (h : x.Orderly latest) (hl : x.callers[l]? = some 0) :
    x.Goes ((x.onLink l (·.abandon .near)).advance 0 .finished) latest := by
  have hlink := h.goes_onLink hl (·.abandon .near)
  exact hlink.trans hlink.orderly.goes_finished

theorem Orderly.goes_leave (h : x.Orderly latest) (hl : x.callers[l]? = some 0) :
    x.Goes ((x.onLink l (·.leave .near)).advance 0 .finished) latest := by
  have hlink := h.goes_onLink hl (·.leave .near)
  exact hlink.trans hlink.orderly.goes_finished

theorem closed_snoc (h : ∀ e ∈ pin, e = .sharingClosed) :
    ∀ e ∈ pin ++ [.sharingClosed], e = .sharingClosed := by
  intro e he
  rcases List.mem_append.mp he with he | he
  · exact h e he
  · exact List.mem_singleton.mp he

/-- A presenter that listens hears nothing, and finds that nothing more will come. -/
theorem OnAir.fallsSilent {cancelled isOpen : Bool}
    (h : x.OnAir l id log ws sent held ⟨[], false, isOpen⟩) (hx : x.Orderly latest)
    (htask : x.tasks[0]? = some (presenterTask (.listening l) cancelled)) (p : Client)
    (pin : List Event) (o : Client) (oin : List Event) :
    ∃ y, (x.network p pin o oin).lag 0 = some (y.network p (pin ++ [.sharingClosed]) o oin) ∧
      (x.network p pin o oin).giveUp 0 (presenterTask (.listening l) cancelled) =
        y.network p pin o oin ∧
      x.Goes y latest ∧ y.tasks[0]? = some (presenterTask .finished cancelled) ∧
      y.OnAir l id log ws sent held ⟨[], false, false⟩ :=
  ⟨(x.onLink l (·.abandon .near)).advance 0 .finished,
    Network.lag_ended_presenting htask h.line rfl rfl, rfl, hx.goes_abandon h.sole.caller,
    getElem?_advanced_self htask .finished, h.abandon.advance 0 _⟩

/-- After the end it does not matter that the presenter stops to listen. -/
theorem presents_abandon {phase : Phase} {cancelled : Bool}
    (htask : x.tasks[0]? = some (presenterTask phase cancelled)) (hempty : x.relay.sessions = [])
    (hpin : ∀ e ∈ pin, e = .sharingClosed) (hslot : slot = none) {line : Line}
    (hline : x.relay.lines[l]? = some line)
    (hgone : ∀ (m : Nat) (line : Line), x.callers[m]? = some 0 → x.relay.lines[m]? = some line →
      line.attendant = .gone) :
    ((x.onLink l (·.abandon .near)).advance 0 .finished).Presents slot pin texts .past := by
  refine .past .finished cancelled (getElem?_advanced_self htask .finished) hempty hpin hslot
    (Or.inl rfl) ?_
  intro m line' hm hline'
  replace hline' : (x.relay.onLink l (·.abandon .near)).lines[m]? = some line' := hline'
  by_cases hml : m = l
  · subst hml
    rw [Relay.getElem?_onLink_self hline, Option.some.injEq] at hline'
    exact hline' ▸ hgone m line hm hline
  · rw [Relay.getElem?_onLink_ne _ hml] at hline'
    exact hgone m line' hm hline'

/-- What the task of the presenter does next comes to the presenter alone. -/
theorem Presents.works (h : x.Presents slot pin texts stage) (hx : x.Orderly latest) {n : Network}
    (hn : (x.network p pin o oin).lag 0 = some n) :
    ∃ y pin', n = y.network p pin' o oin ∧ x.Goes y latest ∧ y.Presents slot pin' texts stage := by
  have hsilence : ∀ {l id log ws sent held isOpen phase cancelled},
      x.OnAir l id log ws sent held ⟨[], false, isOpen⟩ →
      x.tasks[0]? = some (presenterTask phase cancelled) →
      phase = .listening l ∨ phase = .finished →
      ∃ y, n = y.network p (pin ++ [.sharingClosed]) o oin ∧ x.Goes y latest ∧
        y.tasks[0]? = some (presenterTask .finished cancelled) ∧
        y.OnAir l id log ws sent held ⟨[], false, false⟩ := by
    intro l id log ws sent held isOpen phase cancelled honair htask hphase
    rcases hphase with rfl | rfl
    · obtain ⟨y, hlag, -, hgoes, htask', honair'⟩ := honair.fallsSilent hx htask p pin o oin
      rw [hlag, Option.some.injEq] at hn
      exact ⟨y, hn.symm, hgoes, htask', honair'⟩
    · rw [network, Network.lag_finished htask rfl] at hn
      simp at hn
  cases h with
  | unplaced cancelled htask hcancelled hnone hempty hpin hkeeps =>
    rw [network, Network.lag_present htask, Option.some.injEq] at hn
    have hcall : x.Goes (x.call 0 Relay.startText) latest :=
      ⟨hx.call (Or.inl rfl), fun u hu => hx.spares_call _ hu⟩
    have hsole : (x.call 0 Relay.startText).Sole x.relay.lines.length := by
      intro m
      refine (getElem?_snoc ..).trans ?_
      rw [← hx.lines]
      simp [hnone m]
    refine ⟨(x.call 0 Relay.startText).advance 0 (.awaiting x.relay.lines.length), pin, hn.symm,
      hcall.trans (hcall.orderly.goes_advance ?_), ?_⟩
    · intro l hl
      simp only [Phase.line?, Option.some.injEq] at hl
      exact hl ▸ hsole.caller
    · exact .ringing _ cancelled (getElem?_advanced_self htask _) hcancelled hsole hempty
        ((getElem?_snoc ..).mpr (Or.inr ⟨rfl, rfl⟩)) hpin hkeeps
  | ringing l cancelled htask hcancelled hsole hempty hline hpin hkeeps =>
    rw [network, Network.lag_listen htask (Or.inl rfl), Network.listen_silent hline rfl] at hn
    simp [Pipe.fresh, Pipe.takesMore] at hn
  | silent l cancelled htask hsole hempty hline hpin hslot htexts =>
    rw [network, Network.lag_finished htask rfl] at hn
    simp at hn
  | assigned l id ws cancelled htask hcancelled honair hpin hkeeps =>
    rw [network, Network.lag_listen htask (Or.inl rfl), Network.listen_message honair.line rfl,
      Option.some.injEq] at hn
    let heard : Link := ⟨⟨[], true, true⟩, ⟨[], false, true⟩⟩
    have hgoes := hx.goes_onLink honair.sole.caller (fun _ => heard)
    refine ⟨(x.onLink l fun _ => heard).advance 0 (.listening l), pin ++ [.presenterReady 1 id l],
      hn.symm.trans Network.hear_assigned, hgoes.trans (hgoes.orderly.goes_advance ?_), ?_⟩
    · intro m hm
      simp only [Phase.line?, Option.some.injEq] at hm
      exact hm ▸ honair.sole.caller
    · exact .ready l id ws (.listening l) cancelled true [] (getElem?_advanced_self htask _)
        hcancelled ((honair.onLink _ rfl).advance 0 _) (by rw [hpin]; rfl) (by simp) (Or.inl rfl)
        hkeeps
  | ready l id ws phase cancelled isOpen rest htask hcancelled honair hpin hrest hlistens hkeeps =>
    obtain ⟨y, hy, hgoes, htask', honair'⟩ := hsilence honair htask (hlistens.imp_right And.left)
    refine ⟨y, pin ++ [.sharingClosed], hy, hgoes, ?_⟩
    exact .ready l id ws .finished cancelled false (rest ++ [.sharingClosed]) htask' hcancelled
      honair' (by rw [hpin]; rfl) (closed_snoc hrest) (Or.inr ⟨rfl, Or.inr (by simp)⟩) hkeeps
  | sharing l id log sent ws phase isOpen htask honair hpin hlistens hshares htexts =>
    obtain ⟨y, hy, hgoes, htask', honair'⟩ := hsilence honair htask (hlistens.imp_right And.left)
    refine ⟨y, pin ++ [.sharingClosed], hy, hgoes, ?_⟩
    exact .sharing l id log sent ws .finished false htask' honair' (closed_snoc hpin)
      (Or.inr ⟨rfl, Or.inr (by simp)⟩) hshares htexts
  | shut l id log sent ws phase cancelled isOpen htask honair hpin hlistens hslot htexts =>
    obtain ⟨y, hy, hgoes, htask', honair'⟩ := hsilence honair htask (hlistens.imp_right And.left)
    refine ⟨y, pin ++ [.sharingClosed], hy, hgoes, ?_⟩
    exact .shut l id log sent ws .finished cancelled false htask' honair' (closed_snoc hpin)
      (Or.inr ⟨rfl, Or.inl hslot⟩) hslot htexts
  | past phase cancelled htask hempty hpin hslot hphase hgone =>
    rcases hphase with rfl | ⟨l, line, rfl, hcaller, hline, hwaiting, hsender⟩
    · rw [network, Network.lag_finished htask rfl] at hn
      simp at hn
    · have hmore : line.link.down.takesMore = false := by simp [Pipe.takesMore, hsender]
      rw [network, Network.lag_ended_presenting htask hline hwaiting hmore, Option.some.injEq] at hn
      exact ⟨(x.onLink l (·.abandon .near)).advance 0 .finished, pin ++ [Event.sharingClosed], hn.symm,
        hx.goes_abandon hcaller, presents_abandon htask hempty (closed_snoc hpin) hslot hline hgone⟩

/-- The task of a presenter that has stopped goes, and tells nobody. There may be no session yet,
and then there will be none. -/
theorem Presents.quits {phase : Phase} (h : x.Presents slot pin texts stage) (hx : x.Orderly latest)
    (htrue : x.tasks[0]? = some (presenterTask phase true)) (hphase : phase ≠ .finished) :
    ∃ y stage', (x.network p pin o oin).giveUp 0 (presenterTask phase true) = y.network p pin o oin ∧
      x.Goes y latest ∧ y.Presents slot pin texts stage' ∧ (stage' = stage ∨ stage = .ahead) := by
  have hsilence : ∀ {l id log ws sent held isOpen},
      x.OnAir l id log ws sent held ⟨[], false, isOpen⟩ → phase = .listening l ∨ phase = .finished →
      ∃ y, (x.network p pin o oin).giveUp 0 (presenterTask phase true) = y.network p pin o oin ∧
        x.Goes y latest ∧ y.tasks[0]? = some (presenterTask .finished true) ∧
        y.OnAir l id log ws sent held ⟨[], false, false⟩ := by
    intro l id log ws sent held isOpen honair hlistens
    rcases hlistens with rfl | hfinished
    · obtain ⟨y, -, hquit, hgoes⟩ := honair.fallsSilent hx htrue p pin o oin
      exact ⟨y, hquit, hgoes⟩
    · exact absurd hfinished hphase
  cases h with
  | unplaced cancelled htask hcancelled hnone hempty hpin hkeeps =>
    obtain ⟨rfl, rfl⟩ := presenterTask_inj htask htrue
    rw [network, Network.giveUp_calling rfl]
    refine ⟨x.advance 0 .finished, .past, rfl, hx.goes_finished, ?_, Or.inr rfl⟩
    exact .past .finished true (getElem?_advanced_self htask _) hempty (by simp [hpin])
      (hcancelled rfl) (Or.inl rfl) (fun m line hm => absurd hm (hnone m))
  | ringing l cancelled htask hcancelled hsole hempty hline hpin hkeeps =>
    obtain ⟨rfl, rfl⟩ := presenterTask_inj htask htrue
    rw [network, Network.giveUp_awaiting rfl]
    have hslot := hcancelled rfl
    refine ⟨(x.onLink l (·.leave .near)).advance 0 .finished, .ahead, rfl,
      hx.goes_leave hsole.caller, ?_, Or.inl rfl⟩
    exact .silent l true (getElem?_advanced_self htask _) hsole hempty
      (Relay.getElem?_onLink_self hline _) hpin hslot (hkeeps.eq_nil hslot)
  | silent l cancelled htask hsole hempty hline hpin hslot htexts =>
    exact absurd (presenterTask_inj htask htrue).1.symm hphase
  | assigned l id ws cancelled htask hcancelled honair hpin hkeeps =>
    obtain ⟨rfl, rfl⟩ := presenterTask_inj htask htrue
    rw [network, Network.giveUp_awaiting rfl]
    have hslot := hcancelled rfl
    refine ⟨(x.onLink l (·.leave .near)).advance 0 .finished, .live [] ws, rfl,
      hx.goes_leave honair.sole.caller, ?_, Or.inl rfl⟩
    exact .shut l id [] [] ws .finished true false (getElem?_advanced_self htask _)
      (honair.leave.advance 0 _) (by simp [hpin]) (Or.inr ⟨rfl, Or.inl hslot⟩) hslot
      (hkeeps.eq_nil hslot).symm
  | ready l id ws phase' cancelled isOpen rest htask hcancelled honair hpin hrest hlistens hkeeps =>
    obtain ⟨rfl, rfl⟩ := presenterTask_inj htask htrue
    obtain ⟨y, hy, hgoes, htask', honair'⟩ := hsilence honair (hlistens.imp_right And.left)
    refine ⟨y, .live [] ws, hy, hgoes, ?_, Or.inl rfl⟩
    exact .ready l id ws .finished true false rest htask' hcancelled honair' hpin hrest
      (Or.inr ⟨rfl, Or.inl (hcancelled rfl)⟩) hkeeps
  | sharing l id log sent ws phase' isOpen htask honair hpin hlistens hshares htexts =>
    simpa using (presenterTask_inj htask htrue).2
  | shut l id log sent ws phase' cancelled isOpen htask honair hpin hlistens hslot htexts =>
    obtain ⟨rfl, rfl⟩ := presenterTask_inj htask htrue
    obtain ⟨y, hy, hgoes, htask', honair'⟩ := hsilence honair (hlistens.imp_right And.left)
    refine ⟨y, .live log ws, hy, hgoes, ?_, Or.inl rfl⟩
    exact .shut l id log sent ws .finished true false htask' honair' hpin
      (Or.inr ⟨rfl, Or.inl hslot⟩) hslot htexts
  | past phase' cancelled htask hempty hpin hslot hphase' hgone =>
    obtain ⟨rfl, rfl⟩ := presenterTask_inj htask htrue
    rcases hphase' with rfl | ⟨l, line, rfl, hcaller, hline, -⟩
    · exact absurd rfl hphase
    · rw [network, Network.giveUp_presenting]
      exact ⟨(x.onLink l (·.abandon .near)).advance 0 .finished, .past, rfl,
        hx.goes_abandon hcaller, presents_abandon htask hempty hpin hslot hline hgone, Or.inl rfl⟩

/-! ## The attendant of the presenter -/

theorem Orderly.watchers_of_sessions (h : x.Orderly latest) (hl : x.callers[l]? = some 0) {s : Session}
    (hs : x.relay.sessions = [(id, s)]) : s.watchers.Nodup ∧ l ∉ s.watchers := by
  obtain ⟨hnodup, hall⟩ := h.audience id s (by rw [hs]; exact List.mem_singleton.mpr rfl)
  refine ⟨hnodup, ?_⟩
  intro hmem
  obtain ⟨t, line, hcaller, -⟩ := hall l hmem
  rw [hl] at hcaller
  simp at hcaller

/-- Those who watch have been greeted as watchers. -/
theorem Presents.audience (h : x.Presents slot pin texts stage) (hx : x.Orderly latest)
    (hstage : stage = .live log ws) : ∀ m ∈ ws, ∃ t line, x.callers[m]? = some (t + 1) ∧
      x.relay.lines[m]? = some line ∧ line.attendant ≠ .greeting := by
  have hair : ∀ {l i log ws sent held down}, x.OnAir l i log ws sent held down →
      ∀ m ∈ ws, ∃ t line, x.callers[m]? = some (t + 1) ∧ x.relay.lines[m]? = some line ∧
        line.attendant ≠ .greeting := fun honair =>
    (hx.audience _ _ (by rw [honair.sessions]; exact List.mem_singleton.mpr rfl)).2
  cases h <;> cases hstage <;> exact hair (by assumption)

/-- What the relay has handed on are the first lines of the session. -/
theorem Presents.log_prefix (h : x.Presents slot pin texts stage) (hstage : stage = .live log ws) :
    log <+: texts := by
  cases h with
  | assigned => cases hstage; exact List.nil_prefix
  | ready => cases hstage; exact List.nil_prefix
  | sharing _ _ _ sent _ _ _ _ _ _ _ _ htexts => cases hstage; exact ⟨sent, htexts⟩
  | shut _ _ _ sent _ _ _ _ _ _ _ _ _ htexts => cases hstage; exact ⟨sent, htexts⟩
  | _ => cases hstage

/-- What can come of a step on the presenter's line: there is a session or there will be none, a
line of script is handed on, or the session ends with all lines in its log. -/
inductive PresenterStep (x : Exchange) (l : Nat) (slot : Option Presenting) (pin : List Event)
    (texts : List String) (r : Relay) : Stage → Stage → Prop
  | begun (stage : Stage) : x.relay.Touches r l →
      PresenterStep x l slot pin texts r .ahead stage
  | passed (log : List String) (ws : List Nat) (text : String) :
      (∀ m, m ≠ l → r.lines[m]? = x.relay.lines[m]?.map fun line =>
        if m ∈ ws.filter x.relay.reaches then ⟨line.link.send .far (shownText text), line.attendant⟩
        else line) →
      PresenterStep x l slot pin texts r (.live log ws)
        (.live (log ++ [text]) (ws.filter x.relay.reaches))
  | ended (ws : List Nat) :
      (∀ m, m ≠ l → r.lines[m]? = x.relay.lines[m]?.map fun line =>
        if m ∈ ws then ⟨line.link.hangUp .far, line.attendant⟩ else line) →
      PresenterStep x l slot pin texts r (.live texts ws) .past

/-- The attendant of the presenter has nothing to do while nothing comes and more can come. -/
theorem OnAir.waits {down : Pipe} (h : x.OnAir l id log ws [] true down) :
    x.relay.attend l = none := by
  rw [Relay.attend_silence h.line (by simp) (by simp) rfl]
  simp [Pipe.takesMore]

/-- A line of script that comes to the relay is put in the log, and sent to those who watch. -/
theorem OnAir.passes {down : Pipe} {text : String} {r : Relay}
    (h : x.OnAir l id log ws (text :: sent) held down) (hx : x.Orderly latest)
    (hr : x.relay.attend l = some r) :
    (x.answer r).Orderly latest ∧
      (x.answer r).OnAir l id (log ++ [text]) (ws.filter x.relay.reaches) sent held down ∧
      x.PresenterStep l slot pin texts r (.live log ws)
        (.live (log ++ [text]) (ws.filter x.relay.reaches)) := by
  have hcaller : x.callers[l]? = some 0 := h.sole.caller
  obtain ⟨hnodup, hnot⟩ := hx.watchers_of_sessions hcaller h.sessions
  obtain ⟨r', hr', hlength, hsessions, hline, hothers⟩ :=
    Relay.attend_passed h.line h.sessions hnodup hnot rfl
  rw [hr, Option.some.injEq] at hr'
  subst hr'
  refine ⟨?_, ⟨h.sole, ?_, hline⟩, .passed log ws text hothers⟩
  · refine hx.answer_presenter hcaller hlength hothers
      (fun link => Link.up_send_far link (shownText text)) ?_
    intro i s hs
    rw [hsessions, List.mem_singleton, Prod.mk.injEq] at hs
    obtain ⟨rfl, rfl⟩ := hs
    refine ⟨hnodup.filter _, ?_⟩
    intro m hm
    exact ⟨i, _, by rw [h.sessions]; exact List.mem_singleton.mpr rfl, (List.mem_filter.mp hm).1⟩
  · rw [List.map_append]
    exact hsessions

/-- When the presenter has hung up and all has been handed on, the session ends. -/
theorem OnAir.ends {isOpen : Bool} {r : Relay} (h : x.OnAir l id texts ws [] false ⟨[], false, isOpen⟩)
    (hx : x.Orderly latest) (hr : x.relay.attend l = some r) :
    (x.answer r).Orderly latest ∧ r.sessions = [] ∧
      (∃ link, r.lines[l]? = some ⟨link, .gone⟩ ∧ link.down.waiting = [] ∧
        link.down.hasSender = false) ∧
      x.PresenterStep l slot pin texts r (.live texts ws) .past := by
  have hcaller : x.callers[l]? = some 0 := h.sole.caller
  obtain ⟨hnodup, hnot⟩ := hx.watchers_of_sessions hcaller h.sessions
  obtain ⟨r', hr', hlength, hsessions, hline, hothers⟩ :=
    Relay.attend_ended h.line h.sessions hnodup hnot rfl rfl
  rw [hr, Option.some.injEq] at hr'
  subst hr'
  refine ⟨?_, hsessions, ⟨_, hline, rfl, rfl⟩, .ended ws hothers⟩
  exact hx.answer_presenter (f := (·.hangUp .far)) hcaller hlength hothers (fun _ => rfl)
    (by simp [hsessions])

/-- An attendant of the presenter begins a session, hands on a line, or ends the session. -/
theorem Presents.attended (h : x.Presents slot pin texts stage) (hx : x.Orderly latest)
    (hl : x.callers[l]? = some 0) {r : Relay} (hr : x.relay.attend l = some r) :
    ∃ stage', (x.answer r).Orderly latest ∧ (x.answer r).Presents slot pin texts stage' ∧
      x.PresenterStep l slot pin texts r stage stage' := by
  have hwaits : ∀ {id log ws down}, x.OnAir l id log ws [] true down → False := by
    intro id log ws down honair
    rw [honair.waits] at hr
    simp at hr
  cases h with
  | unplaced cancelled htask hcancelled hnone hempty hpin hkeeps => exact absurd hl (hnone l)
  | ringing l' cancelled htask hcancelled hsole hempty hline hpin hkeeps =>
    obtain rfl := (hsole l).mp hl
    obtain ⟨r', hr', htouches, hsessions, hline'⟩ := Relay.attend_start_answered hline rfl rfl
    rw [hr, Option.some.injEq] at hr'
    subst hr'
    rw [hempty] at hsessions
    refine ⟨.live [] [], hx.answer_touched hl htouches ?_, ?_, .begun _ htouches⟩
    · intro i s hs
      rw [hsessions, List.nil_append, List.mem_singleton, Prod.mk.injEq] at hs
      obtain ⟨rfl, rfl⟩ := hs
      simp
    · exact .assigned l _ [] cancelled htask hcancelled ⟨hsole, hsessions, hline'⟩ hpin hkeeps
  | silent l' cancelled htask hsole hempty hline hpin hslot htexts =>
    obtain rfl := (hsole l).mp hl
    obtain ⟨r', link', hr', htouches, hsessions, hline'⟩ :=
      Relay.attend_start_unanswered hline rfl rfl
    rw [hr, Option.some.injEq] at hr'
    subst hr'
    rw [hempty] at hsessions
    refine ⟨.past, hx.answer_touched hl htouches (by simp [hsessions]), ?_, .begun _ htouches⟩
    refine .past .finished cancelled htask hsessions (by simp [hpin]) hslot (Or.inl rfl) ?_
    intro m line hm hmline
    obtain rfl := (hsole m).mp hm
    rw [Option.some.inj (hmline.symm.trans hline')]
  | assigned l' id ws cancelled htask hcancelled honair hpin hkeeps =>
    obtain rfl := (honair.sole l).mp hl
    exact (hwaits honair).elim
  | ready l' id ws phase cancelled isOpen rest htask hcancelled honair hpin hrest hlistens hkeeps =>
    obtain rfl := (honair.sole l).mp hl
    exact (hwaits honair).elim
  | sharing l' id log sent ws phase isOpen htask honair hpin hlistens hshares htexts =>
    obtain rfl := (honair.sole l).mp hl
    cases sent with
    | nil => exact (hwaits honair).elim
    | cons text sent =>
      obtain ⟨horderly, honair', hstep⟩ := honair.passes hx hr
      refine ⟨_, horderly, ?_, hstep⟩
      exact .sharing l id _ sent _ phase isOpen htask honair' hpin hlistens hshares
        (by rw [← htexts]; simp)
  | shut l' id log sent ws phase cancelled isOpen htask honair hpin hlistens hslot htexts =>
    obtain rfl := (honair.sole l).mp hl
    cases sent with
    | nil =>
      rw [List.append_nil] at htexts
      subst htexts
      obtain ⟨horderly, hsessions, ⟨link, hline, hwaiting, hsender⟩, hstep⟩ := honair.ends hx hr
      refine ⟨.past, horderly, ?_, hstep⟩
      refine .past phase cancelled htask hsessions hpin hslot ?_ ?_
      · rcases hlistens with hlistening | ⟨hfinished, -⟩
        · exact Or.inr ⟨l, _, hlistening, hl, hline, hwaiting, hsender⟩
        · exact Or.inl hfinished
      · intro m line hm hmline
        obtain rfl := (honair.sole m).mp hm
        rw [Option.some.inj (hmline.symm.trans hline)]
    | cons text sent =>
      obtain ⟨horderly, honair', hstep⟩ := honair.passes hx hr
      refine ⟨_, horderly, ?_, hstep⟩
      exact .shut l id _ sent _ phase cancelled isOpen htask honair' hpin hlistens hslot
        (by rw [← htexts]; simp)
  | past phase cancelled htask hempty hpin hslot hphase hgone =>
    obtain ⟨⟨link, attendant⟩, hline⟩ := hx.exists_line hl
    have hattendant := hgone l _ hl hline
    cases hattendant
    unfold Relay.attend at hr
    simp [hline] at hr

/-! ## At rest -/

/-- If nobody has anything left to do, the session is over: the presenter has been told that
nothing more will come from the relay, and has taken it for the end. -/
theorem Presents.at_rest {p o : Client} {oin : List Event}
    (h : x.Presents p.presenting pin texts stage) (hx : x.Orderly latest)
    (hrest : (x.network p pin o oin).AtRest) : stage = .past ∧ p.presenting = none := by
  obtain ⟨hprocess, hwork, hattend⟩ := hrest
  have hquiet : pin = [] := by
    cases pin with
    | nil => rfl
    | cons event pin =>
      have hnone := hprocess 0
      simp [network, Network.pair, Network.process?] at hnone
  have hlag : ∀ {phase cancelled}, x.tasks[0]? = some (presenterTask phase cancelled) →
      phase ≠ .finished → (x.network p pin o oin).lag 0 = none := by
    intro phase cancelled htask hphase
    have hnone := hwork 0
    cases cancelled with
    | false => exact (Network.work_eq_lag htask rfl).symm.trans hnone
    | true =>
      unfold Network.work at hnone
      simp only [network, Network.pair, htask] at hnone
      cases phase <;> simp [presenterTask] at hnone hphase
  have hrelay : ∀ l, x.relay.attend l = none := by
    intro l
    have hnone := hattend l
    rw [network, Network.pair_attend, Option.map_eq_none_iff] at hnone
    exact hnone
  cases h with
  | unplaced cancelled htask hcancelled hnone hempty hpin hkeeps =>
    have hcalls := hlag htask (by simp)
    rw [network, Network.lag_present htask] at hcalls
    simp at hcalls
  | ringing l cancelled htask hcancelled hsole hempty hline hpin hkeeps =>
    have hanswer := hrelay l
    rw [Relay.attend_start hline rfl] at hanswer
    simp at hanswer
  | silent l cancelled htask hsole hempty hline hpin hslot htexts =>
    have hanswer := hrelay l
    rw [Relay.attend_start hline rfl] at hanswer
    simp at hanswer
  | assigned l id ws cancelled htask hcancelled honair hpin hkeeps =>
    have hhears := hlag htask (by simp)
    rw [network, Network.lag_listen htask (Or.inl rfl), Network.listen_message honair.line rfl]
      at hhears
    simp at hhears
  | ready l id ws phase cancelled isOpen rest htask hcancelled honair hpin hrest hlistens hkeeps =>
    simp [hpin] at hquiet
  | sharing l id log sent ws phase isOpen htask honair hpin hlistens hshares htexts =>
    rcases hlistens with rfl | ⟨-, hnone | hclosed⟩
    · have hsilence := hlag htask (by simp)
      obtain ⟨y, hends, -⟩ := honair.fallsSilent hx htask p pin o oin
      rw [hends] at hsilence
      simp at hsilence
    · simp [hnone] at hshares
    · simp [hquiet] at hclosed
  | shut l id log sent ws phase cancelled isOpen htask honair hpin hlistens hslot htexts =>
    have hanswer := hrelay l
    cases sent with
    | nil =>
      rw [Relay.attend_silence honair.line (by simp) (by simp) rfl] at hanswer
      simp [Pipe.takesMore] at hanswer
    | cons text sent =>
      rw [Relay.attend_message honair.line (by simp) (by simp) rfl] at hanswer
      simp at hanswer
  | past phase cancelled htask hempty hpin hslot hphase hgone => exact ⟨rfl, hslot⟩

end Presents

end Exchange

end TurtleScript
