-- The presenter's side of a session, from the call to the end. What the
-- presenter keeps, what is on its way to the relay and what the relay has
-- handed on are together always the lines it has submitted, in their order.
import TurtleScript.Proofs.Sharing.Exchange

namespace TurtleScript

/-! ## Stages of a session -/

/-- How far the session of the presenter has come, as watchers can tell: there is none yet, it has
a log and those who watch, or it has ended. -/
inductive Stage where
  | ahead
  | live (log : List String) (ws : List Nat)
  | past

/-- By which event the presenter hears that its session has ended. -/
def Event.sharingClosed : Event := .sessionClosed .presenter 1

/-- The presenter keeps all lines for a session without a line, or it has stopped before and
nothing counts. -/
def Keeps (slot : Option Presenting) (texts : List String) : Prop :=
  slot = none ∧ texts = [] ∨
    slot = some ⟨1, none, .pending (texts.map fun text => .newAction (.submit text))⟩

/-- A presenter that stops before there is a line has nothing that counts. -/
theorem Keeps.eq_nil {slot : Option Presenting} {texts : List String} (h : Keeps slot texts)
    (hslot : slot = none) : texts = [] := by
  rcases h with ⟨-, htexts⟩ | hkept
  · exact htexts
  · simp [hslot] at hkept

/-- The presenter's task listens, or it has told that it does not; there may be no need to. -/
def Listens (slot : Option Presenting) (pin : List Event) (l : Nat) (phase : Phase) : Prop :=
  phase = .listening l ∨ phase = .finished ∧ (slot = none ∨ .sharingClosed ∈ pin)

namespace Exchange

/-- The presenter has called on one line. -/
def Sole (x : Exchange) (l : Nat) : Prop := ∀ m : Nat, x.callers[m]? = some 0 ↔ m = l

/-- The presenter's line while there is a session. The relay holds no end by which it could send
more to the presenter. -/
structure OnAir (x : Exchange) (l : Nat) (id : String) (log : List String) (ws : List Nat)
    (sent : List String) (held : Bool) (down : Pipe) : Prop where
  sole : x.Sole l
  sessions : x.relay.sessions = [(id, ⟨log.map shownText, ws⟩)]
  line : x.relay.lines[l]? =
    some ⟨⟨⟨sent.map passedText, held, true⟩, down⟩, .presenting id⟩

/-- The states of the presenter's side. -/
inductive Presents (x : Exchange) (slot : Option Presenting) (pin : List Event)
    (texts : List String) : Stage → Prop
  | unplaced (cancelled : Bool) :
      x.tasks[0]? = some (presenterTask .calling cancelled) → (cancelled = true → slot = none) →
      (∀ m : Nat, x.callers[m]? ≠ some 0) → x.relay.sessions = [] → pin = [] → Keeps slot texts →
      Presents x slot pin texts .ahead
  | ringing (l : Nat) (cancelled : Bool) :
      x.tasks[0]? = some (presenterTask (.awaiting l) cancelled) → (cancelled = true → slot = none) →
      x.Sole l → x.relay.sessions = [] →
      x.relay.lines[l]? = some ⟨⟨⟨[Relay.startText], true, true⟩, .fresh⟩, .greeting⟩ →
      pin = [] → Keeps slot texts → Presents x slot pin texts .ahead
  | silent (l : Nat) (cancelled : Bool) :
      x.tasks[0]? = some (presenterTask .finished cancelled) →
      x.Sole l → x.relay.sessions = [] →
      x.relay.lines[l]? =
        some ⟨⟨⟨[Relay.startText], false, true⟩, ⟨[], true, false⟩⟩, .greeting⟩ →
      pin = [] → slot = none → texts = [] → Presents x slot pin texts .ahead
  | assigned (l : Nat) (id : String) (ws : List Nat) (cancelled : Bool) :
      x.tasks[0]? = some (presenterTask (.awaiting l) cancelled) → (cancelled = true → slot = none) →
      x.OnAir l id [] ws [] true ⟨[assignedText id], false, true⟩ →
      pin = [] → Keeps slot texts → Presents x slot pin texts (.live [] ws)
  | ready (l : Nat) (id : String) (ws : List Nat) (phase : Phase) (cancelled down : Bool)
      (rest : List Event) :
      x.tasks[0]? = some (presenterTask phase cancelled) → (cancelled = true → slot = none) →
      x.OnAir l id [] ws [] true ⟨[], false, down⟩ → pin = .presenterReady 1 id l :: rest →
      (∀ e ∈ rest, e = .sharingClosed) → Listens slot rest l phase → Keeps slot texts →
      Presents x slot pin texts (.live [] ws)
  | sharing (l : Nat) (id : String) (log sent : List String) (ws : List Nat) (phase : Phase)
      (down : Bool) :
      x.tasks[0]? = some (presenterTask phase false) →
      x.OnAir l id log ws sent true ⟨[], false, down⟩ → (∀ e ∈ pin, e = .sharingClosed) →
      Listens slot pin l phase → slot = some ⟨1, some id, .open l⟩ → log ++ sent = texts →
      Presents x slot pin texts (.live log ws)
  | shut (l : Nat) (id : String) (log sent : List String) (ws : List Nat) (phase : Phase)
      (cancelled down : Bool) :
      x.tasks[0]? = some (presenterTask phase cancelled) →
      x.OnAir l id log ws sent false ⟨[], false, down⟩ → (∀ e ∈ pin, e = .sharingClosed) →
      Listens slot pin l phase → slot = none → log ++ sent = texts →
      Presents x slot pin texts (.live log ws)
  | past (phase : Phase) (cancelled : Bool) :
      x.tasks[0]? = some (presenterTask phase cancelled) → x.relay.sessions = [] →
      (∀ e ∈ pin, e = .sharingClosed) → slot = none →
      (phase = .finished ∨ ∃ l line, phase = .listening l ∧ x.callers[l]? = some 0 ∧
        x.relay.lines[l]? = some line ∧ line.link.down.waiting = [] ∧
        line.link.down.hasSender = false) →
      (∀ (m : Nat) (line : Line), x.callers[m]? = some 0 → x.relay.lines[m]? = some line →
        line.attendant = .gone) →
      Presents x slot pin texts .past

section Presents

variable {x y : Exchange} {slot : Option Presenting} {pin : List Event} {texts : List String}
  {stage : Stage} {l : Nat} {id : String} {log sent : List String} {ws : List Nat} {held : Bool}
  {down : Pipe} {latest : Nat}

/-! ## What others do -/

theorem Sole.spared (h : x.Sole l) (hs : x.Spares y 0) : y.Sole l :=
  fun m => (hs.callers m).trans (h m)

theorem Sole.caller (h : x.Sole l) : x.callers[l]? = some 0 := (h l).mpr rfl

/-- The same line in another exchange, with other watchers. -/
theorem OnAir.spared (h : x.OnAir l id log ws sent held down) (hs : x.Spares y 0) {vs : List Nat}
    (hsessions : y.relay.sessions = [(id, ⟨log.map shownText, vs⟩)]) :
    y.OnAir l id log vs sent held down where
  sole := h.sole.spared hs
  sessions := hsessions
  line := (hs.lines l h.sole.caller).trans h.line

theorem Presents.task (h : x.Presents slot pin texts stage) :
    ∃ phase cancelled, x.tasks[0]? = some (presenterTask phase cancelled) := by
  cases h <;> exact ⟨_, _, by assumption⟩

/-- What spares the presenter and the sessions does not change its side. -/
theorem Presents.spared (h : x.Presents slot pin texts stage) (hs : x.Spares y 0)
    (hsessions : y.relay.sessions = x.relay.sessions) : y.Presents slot pin texts stage := by
  have hair : ∀ {l id log ws sent held down}, x.OnAir l id log ws sent held down →
      y.OnAir l id log ws sent held down := fun h => h.spared hs (hsessions.trans h.sessions)
  cases h with
  | unplaced cancelled htask hcancelled hnone hempty hpin hkeeps =>
    exact .unplaced cancelled (hs.task.trans htask) hcancelled
      (fun m hm => hnone m ((hs.callers m).mp hm)) (hsessions.trans hempty) hpin hkeeps
  | ringing l cancelled htask hcancelled hsole hempty hline hpin hkeeps =>
    exact .ringing l cancelled (hs.task.trans htask) hcancelled (hsole.spared hs)
      (hsessions.trans hempty) ((hs.lines l hsole.caller).trans hline) hpin hkeeps
  | silent l cancelled htask hsole hempty hline hpin hslot htexts =>
    exact .silent l cancelled (hs.task.trans htask) (hsole.spared hs) (hsessions.trans hempty)
      ((hs.lines l hsole.caller).trans hline) hpin hslot htexts
  | assigned l id ws cancelled htask hcancelled honair hpin hkeeps =>
    exact .assigned l id ws cancelled (hs.task.trans htask) hcancelled (hair honair) hpin hkeeps
  | ready l id ws phase cancelled down rest htask hcancelled honair hpin hrest hlistens hkeeps =>
    exact .ready l id ws phase cancelled down rest (hs.task.trans htask) hcancelled (hair honair)
      hpin hrest hlistens hkeeps
  | sharing l id log sent ws phase down htask honair hpin hlistens hslot htexts =>
    exact .sharing l id log sent ws phase down (hs.task.trans htask) (hair honair) hpin hlistens
      hslot htexts
  | shut l id log sent ws phase cancelled down htask honair hpin hlistens hslot htexts =>
    exact .shut l id log sent ws phase cancelled down (hs.task.trans htask) (hair honair) hpin
      hlistens hslot htexts
  | past phase cancelled htask hempty hpin hslot hphase hgone =>
    refine .past phase cancelled (hs.task.trans htask) (hsessions.trans hempty) hpin hslot ?_ ?_
    · rcases hphase with hfinished | ⟨l, line, hlistening, hcaller, hline, hdown⟩
      · exact Or.inl hfinished
      · exact Or.inr ⟨l, line, hlistening, (hs.callers l).mpr hcaller,
          (hs.lines l hcaller).trans hline, hdown⟩
    · intro m line hm hline
      have hcaller := (hs.callers m).mp hm
      exact hgone m line hcaller ((hs.lines m hcaller).symm.trans hline)

/-- One who joins a session is added to those who watch it. -/
theorem Presents.joined (h : x.Presents slot pin texts stage) (hs : x.Spares y 0) {s : Session}
    {n : Nat} (hsession : x.relay.session? id = some s)
    (hsessions : y.relay.sessions = x.relay.sessions.map fun (i, t) =>
      (i, if i = id then { t with watchers := t.watchers ++ [n] } else t)) :
    ∃ log ws, stage = .live log ws ∧ s.log = log.map shownText ∧
      y.Presents slot pin texts (.live log (ws ++ [n])) := by
  have hnobody : x.relay.sessions ≠ [] := by
    intro hempty
    simp [Relay.session?, hempty] at hsession
  have hair : ∀ {l i log ws sent held down}, x.OnAir l i log ws sent held down →
      s.log = log.map shownText ∧ y.OnAir l i log (ws ++ [n]) sent held down := by
    intro l i log ws sent held down honair
    obtain ⟨rfl, rfl⟩ := Relay.session?_eq_some honair.sessions hsession
    refine ⟨rfl, honair.spared hs ?_⟩
    rw [hsessions, honair.sessions]
    simp
  cases h with
  | unplaced cancelled htask hcancelled hnone hempty => exact absurd hempty hnobody
  | ringing l cancelled htask hcancelled hsole hempty => exact absurd hempty hnobody
  | silent l cancelled htask hsole hempty => exact absurd hempty hnobody
  | assigned l i ws cancelled htask hcancelled honair hpin hkeeps =>
    exact ⟨[], ws, rfl, (hair honair).1,
      .assigned l i _ cancelled (hs.task.trans htask) hcancelled (hair honair).2 hpin hkeeps⟩
  | ready l i ws phase cancelled down rest htask hcancelled honair hpin hrest hlistens hkeeps =>
    exact ⟨[], ws, rfl, (hair honair).1, .ready l i _ phase cancelled down rest
      (hs.task.trans htask) hcancelled (hair honair).2 hpin hrest hlistens hkeeps⟩
  | sharing l i log sent ws phase down htask honair hpin hlistens hslot htexts =>
    exact ⟨log, ws, rfl, (hair honair).1, .sharing l i log sent _ phase down
      (hs.task.trans htask) (hair honair).2 hpin hlistens hslot htexts⟩
  | shut l i log sent ws phase cancelled down htask honair hpin hlistens hslot htexts =>
    exact ⟨log, ws, rfl, (hair honair).1, .shut l i log sent _ phase cancelled down
      (hs.task.trans htask) (hair honair).2 hpin hlistens hslot htexts⟩
  | past phase cancelled htask hempty => exact absurd hempty hnobody

/-! ## Turns of the presenter -/

/-- The presenter's side has gone on, and nothing has happened to watchers. -/
structure Goes (x y : Exchange) (latest : Nat) : Prop where
  orderly : y.Orderly latest
  spares : ∀ u, u ≠ 0 → x.Spares y u

theorem spares_self (x : Exchange) (u : Nat) : x.Spares x u :=
  ⟨fun _ => Iff.rfl, fun _ _ => rfl, rfl⟩

theorem Orderly.stays (h : x.Orderly latest) : x.Goes x latest := ⟨h, fun u _ => x.spares_self u⟩

theorem Goes.trans {z : Exchange} (hy : x.Goes y latest) (hz : y.Goes z latest) :
    x.Goes z latest := ⟨hz.orderly, fun u hu => (hy.spares u hu).trans (hz.spares u hu)⟩

theorem Orderly.goes_onLink (h : x.Orderly latest) (hl : x.callers[l]? = some 0) (f : Link → Link) :
    x.Goes (x.onLink l f) latest := ⟨h.onLink (Or.inl hl), fun _ hu => spares_onLink hl f hu⟩

theorem Orderly.goes_advance (h : x.Orderly latest) {phase : Phase}
    (hphase : ∀ l, phase.line? = some l → x.callers[l]? = some 0) :
    x.Goes (x.advance 0 phase) latest :=
  ⟨h.advance hphase (Or.inl rfl), fun _ hu => spares_advance x phase hu⟩

/-- Giving up the task of the presenter is nothing to watchers. -/
theorem Orderly.goes_giveUp (h : x.Orderly latest) : x.Goes (x.giveUp 0 1) latest := by
  refine ⟨h.giveUp 0 1, ?_⟩
  intro u hu
  refine ⟨fun _ => Iff.rfl, fun _ _ => rfl, ?_⟩
  obtain ⟨t, rfl⟩ := Nat.exists_eq_succ_of_ne_zero hu
  rw [getElem?_giveUp]
  cases htask : x.tasks[t + 1]? with
  | none => rfl
  | some task =>
    obtain ⟨id, phase, cancelled, rfl, -⟩ := h.watchers t task htask
    simp [watcherTask]

theorem task_giveUp {phase : Phase} {cancelled : Bool}
    (h : x.tasks[0]? = some (presenterTask phase cancelled)) :
    (x.giveUp 0 1).tasks[0]? = some (presenterTask phase true) := by
  rw [getElem?_giveUp, h]
  rfl

/-- The presenter's line after something has happened on it. -/
theorem OnAir.onLink (h : x.OnAir l id log ws sent held down) (f : Link → Link)
    {sent' : List String} {held' : Bool} {down' : Pipe}
    (hf : f ⟨⟨sent.map passedText, held, true⟩, down⟩ =
      ⟨⟨sent'.map passedText, held', true⟩, down'⟩) :
    (x.onLink l f).OnAir l id log ws sent' held' down' where
  sole := h.sole
  sessions := h.sessions
  line := by
    have hself := Relay.getElem?_onLink_self h.line f
    rw [hf] at hself
    exact hself

theorem OnAir.advance (h : x.OnAir l id log ws sent held down) (t : Nat) (phase : Phase) :
    (x.advance t phase).OnAir l id log ws sent held down := ⟨h.sole, h.sessions, h.line⟩

theorem OnAir.giveUp (h : x.OnAir l id log ws sent held down) (s generation : Nat) :
    (x.giveUp s generation).OnAir l id log ws sent held down := ⟨h.sole, h.sessions, h.line⟩

/-- A line that the presenter sends is behind those on their way. -/
theorem OnAir.send (h : x.OnAir l id log ws sent true down) (text : String) :
    (x.onLink l (·.send .near (passedText text))).OnAir l id log ws (sent ++ [text]) true down := by
  refine h.onLink _ ?_
  simp [Link.send, Link.send?, Link.outgoing, Pipe.send?, Pipe.takesMore, Link.withOutgoing]

theorem OnAir.hangUp (h : x.OnAir l id log ws sent held down) :
    (x.onLink l (·.hangUp .near)).OnAir l id log ws sent false down := h.onLink _ rfl

theorem OnAir.abandon {downs : List String} {down : Bool}
    (h : x.OnAir l id log ws sent held ⟨downs, false, down⟩) :
    (x.onLink l (·.abandon .near)).OnAir l id log ws sent held ⟨[], false, false⟩ :=
  h.onLink _ rfl

theorem OnAir.leave {downs : List String} {down : Bool}
    (h : x.OnAir l id log ws sent held ⟨downs, false, down⟩) :
    (x.onLink l (·.leave .near)).OnAir l id log ws sent false ⟨[], false, false⟩ :=
  h.onLink _ rfl

section Turns

variable {p o : Client} {oin : List Event} {generation : Nat} {known : Option String}
  {messages : List (Message Action)}

/-- While lines are kept, others can be kept in their place, or none if the task is given up. -/
theorem Presents.rekept (h : x.Presents slot pin texts stage)
    (hslot : slot = some ⟨generation, known, .pending messages⟩) {ts : List Task}
    {slot' : Option Presenting} {texts' : List String} (hkeeps : Keeps slot' texts')
    (htask : ∀ phase, x.tasks[0]? = some (presenterTask phase false) →
      ∃ cancelled, ts[0]? = some (presenterTask phase cancelled) ∧ (cancelled = true → slot' = none)) :
    Presents { x with tasks := ts } slot' pin texts' stage ∧ stage ≠ .past ∧ Keeps slot texts := by
  have hfalse : ∀ {cancelled : Bool}, (cancelled = true → slot = none) → cancelled = false := by
    intro cancelled hcancelled
    cases cancelled with
    | false => rfl
    | true => simp [hcancelled rfl] at hslot
  cases h with
  | unplaced cancelled hold hcancelled hnone hempty hpin hkept =>
    cases hfalse hcancelled
    obtain ⟨cancelled', hnew, hcancelled'⟩ := htask _ hold
    exact ⟨.unplaced cancelled' hnew hcancelled' hnone hempty hpin hkeeps, by simp, hkept⟩
  | ringing l cancelled hold hcancelled hsole hempty hline hpin hkept =>
    cases hfalse hcancelled
    obtain ⟨cancelled', hnew, hcancelled'⟩ := htask _ hold
    exact ⟨.ringing l cancelled' hnew hcancelled' hsole hempty hline hpin hkeeps, by simp, hkept⟩
  | silent l cancelled hold hsole hempty hline hpin hnone => simp [hnone] at hslot
  | assigned l id ws cancelled hold hcancelled honair hpin hkept =>
    cases hfalse hcancelled
    obtain ⟨cancelled', hnew, hcancelled'⟩ := htask _ hold
    exact ⟨.assigned l id ws cancelled' hnew hcancelled' ⟨honair.sole, honair.sessions, honair.line⟩
      hpin hkeeps, by simp, hkept⟩
  | ready l id ws phase cancelled down rest hold hcancelled honair hpin hrest hlistens hkept =>
    cases hfalse hcancelled
    obtain ⟨cancelled', hnew, hcancelled'⟩ := htask _ hold
    have hlistens' : Listens slot' rest l phase := by
      rcases hlistens with hlistening | ⟨hfinished, hnone | hclosed⟩
      · exact Or.inl hlistening
      · simp [hnone] at hslot
      · exact Or.inr ⟨hfinished, Or.inr hclosed⟩
    exact ⟨.ready l id ws phase cancelled' down rest hnew hcancelled'
      ⟨honair.sole, honair.sessions, honair.line⟩ hpin hrest hlistens' hkeeps, by simp, hkept⟩
  | sharing l id log sent ws phase down hold honair hpin hlistens hshares => simp [hshares] at hslot
  | shut l id log sent ws phase cancelled down hold honair hpin hlistens hnone =>
    simp [hnone] at hslot
  | past phase cancelled hold hempty hpin hnone => simp [hnone] at hslot

/-- A presenter that sends over a line has a session. -/
theorem Presents.onAir (h : x.Presents slot pin texts stage)
    (hslot : slot = some ⟨generation, known, .open l⟩) :
    generation = 1 ∧ ∃ id log sent ws phase down, known = some id ∧ stage = .live log ws ∧
      x.tasks[0]? = some (presenterTask phase false) ∧
      x.OnAir l id log ws sent true ⟨[], false, down⟩ ∧ (∀ e ∈ pin, e = .sharingClosed) ∧
      Listens slot pin l phase ∧ log ++ sent = texts := by
  have hpending : ¬ Keeps slot texts := by
    rintro (⟨hnone, -⟩ | hpending)
    · simp [hnone] at hslot
    · simp [hpending] at hslot
  cases h with
  | sharing l' id log sent ws phase down htask honair hpin hlistens hshares htexts =>
    rw [hslot, Option.some.injEq, Presenting.mk.injEq, Outlet.open.injEq] at hshares
    obtain ⟨rfl, rfl, rfl⟩ := hshares
    exact ⟨rfl, id, log, sent, ws, phase, down, rfl, rfl, htask, honair, hpin, hlistens, htexts⟩
  | unplaced _ _ _ _ _ _ hkept => exact absurd hkept hpending
  | ringing _ _ _ _ _ _ _ _ hkept => exact absurd hkept hpending
  | silent _ _ _ _ _ _ _ hnone => simp [hnone] at hslot
  | assigned _ _ _ _ _ _ _ _ hkept => exact absurd hkept hpending
  | ready _ _ _ _ _ _ _ _ _ _ _ _ _ hkept => exact absurd hkept hpending
  | shut _ _ _ _ _ _ _ _ _ _ _ _ hnone => simp [hnone] at hslot
  | past _ _ _ _ _ hnone => simp [hnone] at hslot

/-- A presenter that hangs up has sent all that it will. -/
theorem Presents.hungUp (h : x.Presents slot pin texts stage)
    (hslot : slot = some ⟨generation, known, .open l⟩) (hx : x.Orderly latest) {pin' : List Event}
    (hpin' : ∀ e ∈ pin', e ∈ pin) :
    generation = 1 ∧ x.Goes ((x.onLink l (·.hangUp .near)).giveUp 0 1) latest ∧
      ((x.onLink l (·.hangUp .near)).giveUp 0 1).Presents none pin' texts stage := by
  obtain ⟨hgeneration, id, log, sent, ws, phase, down, -, rfl, htask, honair, hpin, hlistens,
    htexts⟩ := h.onAir hslot
  have hgoes := hx.goes_onLink honair.sole.caller (·.hangUp .near)
  refine ⟨hgeneration, hgoes.trans hgoes.orderly.goes_giveUp, ?_⟩
  refine .shut l id log sent ws phase true down (task_giveUp htask) (honair.hangUp.giveUp 0 1)
    (fun e he => hpin e (hpin' e he)) ?_ rfl htexts
  rcases hlistens with hlistening | ⟨hfinished, -⟩
  · exact Or.inl hlistening
  · exact Or.inr ⟨hfinished, Or.inl rfl⟩

/-- A line that the presenter submits is the last one of its session, if it has one. -/
theorem Presents.submits (h : x.Presents p.presenting pin texts stage) (hx : x.Orderly latest)
    (text : String) (o : Client) (oin : List Event) :
    ∃ y, ((x.network p pin o oin).dispatch 0 (.submit text)).1 =
        y.network (p.dispatch (.submit text)).client pin o oin ∧ x.Goes y latest ∧
      y.Presents (p.dispatch (.submit text)).client.presenting pin
        (if p.presenting.isSome then texts ++ [text] else texts) stage ∧
      (p.dispatch (.submit text)).client.presenting.isSome = p.presenting.isSome ∧
      (p.presenting.isSome = true → stage ≠ .past) := by
  rw [network, Network.pair_dispatch_zero]
  cases hslot : p.presenting with
  | none =>
    obtain ⟨heffects, hpresenting⟩ := Client.submit_unshared hslot text
    rw [heffects, hpresenting]
    exact ⟨x, rfl, hx.stays, by simpa [hslot] using h, rfl, by simp⟩
  | some slot =>
    obtain ⟨generation, known, outlet⟩ := slot
    cases outlet with
    | pending messages =>
      obtain ⟨heffects, hpresenting⟩ := Client.submit_kept hslot text
      obtain ⟨-, hstage, hkept⟩ := h.rekept hslot (Or.inl ⟨rfl, rfl⟩)
        (fun phase htask => ⟨false, htask, by simp⟩)
      have hkeeps : Keeps (some ⟨generation, known,
          .pending (messages ++ [.newAction (.submit text)])⟩) (texts ++ [text]) := by
        rcases hkept with ⟨hnone, -⟩ | hpending
        · simp [hnone] at hslot
        · rw [hslot, Option.some.injEq, Presenting.mk.injEq, Outlet.pending.injEq] at hpending
          obtain ⟨rfl, rfl, rfl⟩ := hpending
          right
          simp
      rw [heffects, hpresenting]
      obtain ⟨hnext, -, -⟩ := h.rekept hslot hkeeps (fun phase htask => ⟨false, htask, by simp⟩)
      exact ⟨x, rfl, hx.stays, hnext, rfl, fun _ => hstage⟩
    | «open» l =>
      obtain ⟨heffects, hpresenting⟩ := Client.submit_sent hslot text
      obtain ⟨rfl, id, log, sent, ws, phase, down, rfl, rfl, htask, honair, hpin, hlistens, rfl⟩ :=
        h.onAir hslot
      rw [heffects, hpresenting, hslot]
      refine ⟨x.onLink l (·.send .near (passedText text)), rfl,
        hx.goes_onLink honair.sole.caller _, ?_, rfl, by simp⟩
      exact .sharing l id log (sent ++ [text]) ws phase down htask (honair.send text) hpin
        (hslot ▸ hlistens) rfl (List.append_assoc ..).symm

theorem Presents.renames (h : x.Presents p.presenting pin texts stage) (name : String) (o : Client)
    (oin : List Event) :
    ((x.network p pin o oin).dispatch 0 (.rename name)).1 =
        x.network (p.dispatch (.rename name)).client pin o oin ∧
      x.Presents (p.dispatch (.rename name)).client.presenting pin texts stage := by
  obtain ⟨heffects, hpresenting⟩ := Client.rename_turn p name
  rw [network, Network.pair_dispatch_zero, heffects, hpresenting]
  exact ⟨rfl, h⟩

/-- A presenter that stops forgets the lines that it has only kept. -/
theorem Presents.stops (h : x.Presents p.presenting pin texts stage) (hx : x.Orderly latest)
    (o : Client) (oin : List Event) :
    ∃ y texts', ((x.network p pin o oin).dispatch 0 .stopSharing).1 =
        y.network (p.dispatch .stopSharing).client pin o oin ∧ x.Goes y latest ∧
      (p.dispatch .stopSharing).client.presenting = none ∧ y.Presents none pin texts' stage ∧
      texts' = (match p.presenting with
        | some ⟨_, _, .pending _⟩ => []
        | _ => texts) ∧
      (texts' ≠ texts → stage ≠ .past) := by
  rw [network, Network.pair_dispatch_zero]
  cases hslot : p.presenting with
  | none =>
    obtain ⟨heffects, hpresenting⟩ := Client.stop_unshared hslot
    rw [heffects]
    exact ⟨x, texts, rfl, hx.stays, hpresenting, hslot ▸ h, rfl, by simp⟩
  | some slot =>
    obtain ⟨heffects, hpresenting⟩ := Client.stop_shared hslot
    rw [heffects]
    obtain ⟨generation, known, outlet⟩ := slot
    cases outlet with
    | pending messages =>
      obtain ⟨hnext, hstage, hkept⟩ := h.rekept hslot (Or.inl ⟨rfl, rfl⟩)
        (fun phase htask => ⟨true, task_giveUp htask, fun _ => rfl⟩)
      have hgeneration : generation = 1 := by
        rcases hkept with ⟨hnone, -⟩ | hpending
        · simp [hnone] at hslot
        · rw [hslot, Option.some.injEq, Presenting.mk.injEq] at hpending
          exact hpending.1
      subst hgeneration
      exact ⟨x.giveUp 0 1, [], rfl, hx.goes_giveUp, hpresenting, hnext, rfl, fun _ => hstage⟩
    | «open» l =>
      obtain ⟨rfl, hgoes, hnext⟩ := h.hungUp hslot hx (fun e he => he)
      exact ⟨_, texts, rfl, hgoes, hpresenting, hnext, rfl, by simp⟩

/-- Lines that were kept are sent one after the other. -/
theorem OnAir.sendAll (h : x.OnAir l id log ws sent true down) (hx : x.Orderly latest)
    (kept : List String) :
    ∃ y, ((kept.map fun text => Message.newAction (Action.submit text)).map (Effect.send l)).foldl
        (Network.carryOut · 0) (x.network p pin o oin) = y.network p pin o oin ∧
      x.Goes y latest ∧ y.tasks = x.tasks ∧ y.OnAir l id log ws (sent ++ kept) true down := by
  induction kept generalizing x sent with
  | nil => exact ⟨x, rfl, hx.stays, rfl, by simpa using h⟩
  | cons text kept ih =>
    have hgoes := hx.goes_onLink h.sole.caller (·.send .near (passedText text))
    obtain ⟨y, hy, hnext, htasks, honair⟩ := ih (h.send text) hgoes.orderly
    refine ⟨y, hy, hgoes.trans hnext, htasks, ?_⟩
    rwa [List.append_assoc] at honair

/-- The presenter deals with its next event. -/
theorem Presents.processes {event : Event} (h : x.Presents p.presenting (event :: pin) texts stage)
    (hx : x.Orderly latest) (o : Client) (oin : List Event) :
    ∃ y p', ((x.network p (event :: pin) o oin).process? 0).map (·.1) = some (y.network p' pin o oin) ∧
      x.Goes y latest ∧ p'.present = p.present ∧ y.Presents p'.presenting pin texts stage ∧
      (p'.presenting.isSome = true → p.presenting.isSome = true) := by
  rw [network, Network.pair_process_zero]
  have hclosed : ∀ {l}, p.presenting = none → (∀ e ∈ event :: pin, e = .sharingClosed) →
      Listens p.presenting (event :: pin) l = Listens p.presenting pin l ∧
      p.process event = p.stay := by
    intro l hnone hall
    refine ⟨?_, ?_⟩
    · funext phase
      simp [Listens, hnone]
    · rw [hall event List.mem_cons_self]
      exact Client.closed_unshared hnone
  cases h with
  | ready l id ws phase cancelled down rest htask hcancelled honair hpin hrest hlistens hkeeps =>
    obtain ⟨rfl, rfl⟩ := List.cons.inj hpin
    rcases hkeeps with ⟨hnone, rfl⟩ | hkept
    · rw [Client.ready_unshared hnone]
      refine ⟨x.onLink l (·.hangUp .near), p, rfl, hx.goes_onLink honair.sole.caller _, rfl, ?_,
        fun h => h⟩
      exact .shut l id [] [] ws phase cancelled down htask honair.hangUp hrest hlistens hnone rfl
    · obtain ⟨heffects, hpresenting⟩ := Client.ready_kept hkept id l
      rw [heffects]
      obtain ⟨y, hy, hgoes, htasks, honair'⟩ := honair.sendAll hx texts
        (p := (p.process (.presenterReady 1 id l)).client)
      refine ⟨y, _, congrArg some hy, hgoes, Client.present_ready p, ?_, by simp [hkept]⟩
      have hfalse : cancelled = false := by
        cases cancelled with
        | false => rfl
        | true => simp [hcancelled rfl] at hkept
      subst hfalse
      refine .sharing l id [] texts ws phase down (htasks ▸ htask) honair' hrest ?_ hpresenting rfl
      rcases hlistens with hlistening | ⟨hfinished, hnone | htold⟩
      · exact Or.inl hlistening
      · simp [hnone] at hkept
      · exact Or.inr ⟨hfinished, Or.inr htold⟩
  | sharing l id log sent ws phase down htask honair hpin hlistens hshares htexts =>
    have hevent := hpin event List.mem_cons_self
    subst hevent
    obtain ⟨heffects, hpresenting⟩ := Client.closed_shared hshares rfl
    have hside : x.Presents p.presenting (.sharingClosed :: pin) texts (.live log ws) :=
      .sharing l id log sent ws phase down htask honair hpin hlistens hshares htexts
    obtain ⟨-, hgoes, hnext⟩ := hside.hungUp hshares hx (fun e he => List.mem_cons_of_mem _ he)
    refine ⟨_, _, ?_, hgoes, Client.present_closed p .presenter, hpresenting ▸ hnext, ?_⟩
    · exact congrArg some (by rw [Event.sharingClosed, heffects]; rfl)
    · simp [hshares]
  | shut l id log sent ws phase cancelled down htask honair hpin hlistens hnone htexts =>
    obtain ⟨hsame, hstay⟩ := hclosed hnone hpin
    rw [hstay]
    exact ⟨x, p, rfl, hx.stays, rfl, .shut l id log sent ws phase cancelled down htask honair
      (fun e he => hpin e (List.mem_cons_of_mem _ he)) (hsame ▸ hlistens) hnone htexts,
      fun h => h⟩
  | past phase cancelled htask hempty hpin hnone hphase hgone =>
    obtain ⟨-, hstay⟩ := hclosed (l := 0) hnone hpin
    rw [hstay]
    exact ⟨x, p, rfl, hx.stays, rfl, .past phase cancelled htask hempty
      (fun e he => hpin e (List.mem_cons_of_mem _ he)) hnone hphase hgone, fun h => h⟩
  | unplaced _ _ _ _ _ hpin => simp at hpin
  | ringing _ _ _ _ _ _ _ hpin => simp at hpin
  | silent _ _ _ _ _ _ hpin => simp at hpin
  | assigned _ _ _ _ _ _ _ hpin => simp at hpin

end Turns

end Presents

end Exchange

end TurtleScript
