-- The law of all traffic on the lines of a relay: sessions do not mix, and none
-- of their watchers misses anything or gets anything twice.
import TurtleScript.Proofs.Sharing.Relaying

namespace TurtleScript

open SessionIds (counted)

namespace Traffic

variable {t : Traffic}

/-! ## All incidents -/

theorem Exact.attend (h : t.Exact) (n : Nat) : t.Onward (t.step (.attend n)) := by
  cases hattend : t.relay.attend n with
  | none =>
    rw [step_attend_none hattend]
    exact .refl h
  | some r =>
    obtain ⟨⟨link, attendant⟩, hline⟩ := Relay.exists_line_of_attend hattend
    generalize hstep : t.step (.attend n) = t'
    obtain ⟨hrelay, hd⟩ := step_attend hline hattend hstep
    have hattends := Relay.attends_of_attend hline hattend
    rw [← hrelay] at hattends
    cases hattends with
    | opens text link' hwaiting htext htouches hsessions hids hline' hdown =>
      exact (hd.opened h hwaiting htext htouches hsessions hids hline' hdown).onward h
    | joins text id s link' hwaiting htext hs htouches hsessions hids hline' hdown =>
      exact (hd.joined h hwaiting htext hs htouches hsessions hids hline' hdown).onward h
    | passes id text action rest hwaiting haction hrelay =>
      obtain ⟨s, hp⟩ := hd.passed h hwaiting haction hrelay
      exact hp.onward h
    | ends id hwaiting hrelay =>
      obtain ⟨s, he⟩ := hd.ended h hwaiting hrelay
      exact he.onward h
    | skips _ text rest hwaiting hskip hrelay => exact h.skips hd hwaiting hskip hrelay
    | refuses link' htouches hsessions hids hline' hdown =>
      exact h.leaves hd (Or.inl rfl) htouches hsessions hids hline' (by rw [hdown]; rfl)
        (by rw [hdown]; rfl) (by simp)
    | leaves link' htouches hsessions hids hline' hdown =>
      exact h.leaves hd (Or.inr rfl) htouches hsessions hids hline' (by rw [hdown])
        (by rw [hdown]) fun _ => by rw [hdown]

/-- One incident keeps all that is known. -/
theorem Exact.step (h : t.Exact) (incident : Incident) : t.Onward (t.step incident) := by
  cases incident with
  | call => exact h.call
  | caller n d => exact h.caller n d
  | attend n => exact h.attend n

/-- So do any number of them. -/
theorem Exact.run (h : t.Exact) (incidents : List Incident) : t.Onward (t.run incidents) := by
  induction incidents generalizing t with
  | nil => exact .refl h
  | cons incident incidents ih =>
    have hnext := h.step incident
    exact hnext.trans (ih hnext.exact)

theorem exact_start (ids : SessionIds) : (start ids).Exact where
  beyond := fun _ _ => rfl
  suits := by simp [start, Relay.fresh]
  fed := fun _ => Or.inl rfl
  issued := by simp [Presents, start, Record.request?, Record.empty]
  sole := by simp [Presents, start, Record.request?, Record.empty]
  sessions := by simp [start, Relay.fresh, Relay.session?]

/-! ## The law -/

/-- Whatever ids a relay gives out and whatever has come over its lines, a session has one
presenter. Its log is what the attendant of the presenter's line has read as actions among all
messages so far, which are the first ones that the presenter sent. Each of its watchers asked for it, and as long as the watcher
can be reached, be it that the session goes on or that it has ended, the watcher has been sent all
that was passed on, however early or late it came, and is kept a sender exactly as long as there is
the session. Nobody is ever sent anything but the id of a session of its own or the first actions
of the session that it asked for. -/
theorem fan_out_is_exact (ids : SessionIds) (before later : List Incident) :
    let t := (start ids).run before
    let u := t.run later
    (∀ id s, t.relay.session? id = some s → ∃ p link,
      t.relay.lines[p]? = some ⟨link, .presenting id⟩ ∧ (∀ q, t.Presents q id ↔ q = p) ∧
      (t.records p).said = (t.records p).heard ++ link.up.waiting ∧
      s.log = (t.records p).actions ∧ s.watchers.Nodup ∧
      ∀ w ∈ s.watchers, t.Asks w id ∧
        ∀ line, u.relay.lines[w]? = some line → line.link.down.isOpen = true →
          u.told w = (u.records p).actions ∧
          (line.link.down.hasSender = true ↔ (u.relay.session? id).isSome = true) ∧
          ∀ s', u.relay.session? id = some s' →
            s'.log = (u.records p).actions ∧ w ∈ s'.watchers) ∧
    ∀ n, t.told n <+: u.told n ∧ (t.told n = [] ∨ (∃ id, t.Presents n id) ∨
      ∃ id p, t.Asks n id ∧ t.Presents p id ∧ t.told n <+: (t.records p).actions) := by
  intro t u
  have ht : t.Exact := ((exact_start ids).run before).exact
  have hu : t.Onward u := ht.run later
  refine ⟨?_, fun n => ⟨hu.told n, ht.fed n⟩⟩
  intro id s hs
  obtain ⟨p, link, hline, hlog, hnodup, hwatchers⟩ := ht.sessions id s hs
  obtain ⟨⟨hp, -⟩, harrives⟩ := ht.suits p _ hline
  have hlater : ∀ s', u.relay.session? id = some s' → s'.log = (u.records p).actions := by
    intro s' hs'
    obtain ⟨q, qlink, hq, hlog', -⟩ := hu.exact.sessions id s' hs'
    have hqp := hu.exact.sole q p id (hu.exact.presents_of_line hq).1 (hu.presents p id hp)
    exact hqp ▸ hlog'
  refine ⟨p, link, hline, fun q => ⟨fun hq => ht.sole q p id hq hp, fun hq => hq ▸ hp⟩,
    harrives.waiting (by simp), hlog, hnodup, fun w hw => ⟨(hwatchers w hw).1, ?_⟩⟩
  intro line hline' hopen
  obtain ⟨-, -, after, hafter, -, hexact⟩ := hu.follows w p id (hwatchers w hw)
  rw [hline', Option.some.injEq] at hafter
  subst hafter
  obtain ⟨hall, hends, hstays⟩ := hexact hopen
  exact ⟨hall, hends, fun s' hs' => ⟨hlater s' hs', hstays s' hs'⟩⟩

/-- A presenter passes an action on before its watcher comes. -/
def untilJoined : List Incident :=
  [.call, .caller 0 (.say Relay.startText), .attend 0, .caller 0 (.say (passedText "fd 1")), .attend 0,
   .call, .caller 1 (.say (Relay.watchText counted.first)), .attend 1]

/-- It passes another one on and leaves at once. -/
def untilEnded : List Incident :=
  [.caller 0 (.say (passedText "fd 3")), .caller 0 .leave, .attend 0, .attend 0]

theorem late_watcher_is_sent_all :
    let t := (start counted).run untilJoined
    let u := t.run untilEnded
    t.relay.session? counted.first = some ⟨[shownText "fd 1"], [1]⟩ ∧
      u.relay.session? counted.first = none ∧ u.told 1 = [shownText "fd 1", shownText "fd 3"] ∧
      ∃ line, u.relay.lines[1]? = some line ∧ line.link.down.hasSender = false := by
  have hbefore : ((start counted).run untilJoined).relay.session? counted.first =
      some ⟨[shownText "fd 1"], [1]⟩ ∧
      (((start counted).run untilJoined).records 0).heard.head? = some Relay.startText ∧
      ((start counted).run untilJoined).told 0 = [assignedText counted.first] := by decide +kernel
  have hlater :
      (((start counted).run untilJoined).run untilEnded).relay.session? counted.first = none ∧
      ((((start counted).run untilJoined).run untilEnded).records 0).actions =
        [shownText "fd 1", shownText "fd 3"] ∧
      (((start counted).run untilJoined).run untilEnded).relay.lines[1]?.map (·.link.down.isOpen) =
        some true := by decide +kernel
  obtain ⟨hlaw, -⟩ := fan_out_is_exact counted untilJoined untilEnded
  dsimp only at hlaw ⊢
  generalize (start counted).run untilJoined = t at *
  generalize t.run untilEnded = u at *
  obtain ⟨hsession, hheard, htold⟩ := hbefore
  obtain ⟨hended, hactions, hopen⟩ := hlater
  obtain ⟨p, link, -, hsole, -, -, -, hwatchers⟩ := hlaw counted.first _ hsession
  have hfirst : t.Presents 0 counted.first := by
    refine ⟨?_, htold⟩
    unfold Record.request?
    rw [hheard, Option.bind_some]
    exact relayed?_startSharing
  obtain rfl : 0 = p := (hsole 0).mp hfirst
  obtain ⟨line, hline, hopen⟩ := Option.map_eq_some_iff.mp hopen
  obtain ⟨hall, hends, -⟩ := (hwatchers 1 (by decide)).2 line hline hopen
  rw [hended] at hends
  exact ⟨hsession, hended, hall.trans hactions, line, hline, by simpa using hends⟩

end Traffic

end TurtleScript
