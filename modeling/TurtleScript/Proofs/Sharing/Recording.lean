-- The lines of a network with a record of all that has come over them. What
-- happens in the network is some incidents on its lines, so all that is known
-- of such traffic is known here too; and the record says who has put what on
-- a line, and what the clients were told of it.
import TurtleScript.Proofs.Sharing.Fanning
import TurtleScript.Proofs.Sharing.Passing
import TurtleScript.Proofs.Sharing.Writing

namespace TurtleScript

/-! ## Texts on a line -/

/-- The texts that an incident puts on a line, be they lost or not. -/
def Incident.texts (line : Nat) : Incident → List String
  | .caller n (.say text) => if n = line then [text] else []
  | _ => []

/-- The incident that an effect is on the lines. -/
def Effect.incident? : Effect → Option Incident
  | .send line message => some (.caller line (.say message.text))
  | .hangUp line => some (.caller line .hangUp)
  | _ => none

namespace Traffic

variable {t t' u : Traffic} {line : Nat} {texts more : List String}

/-- The record of a line goes on: some of these texts are on it now, and what its caller has got is
kept. -/
structure GoesOn (t t' : Traffic) (line : Nat) (texts : List String) : Prop where
  said : ∃ new, (t'.records line).said = (t.records line).said ++ new ∧ new.Sublist texts
  got : (t.records line).got <+: (t'.records line).got

theorem goesOn_of_eq (hsaid : (t'.records line).said = (t.records line).said)
    (hgot : (t'.records line).got = (t.records line).got) (texts : List String) :
    t.GoesOn t' line texts :=
  ⟨⟨[], by rw [hsaid, List.append_nil], List.nil_sublist _⟩, by simp [hgot]⟩

theorem GoesOn.trans (h : t.GoesOn t' line texts) (h' : t'.GoesOn u line more) :
    t.GoesOn u line (texts ++ more) := by
  obtain ⟨⟨first, hfirst, hsub⟩, hgot⟩ := h
  obtain ⟨⟨second, hsecond, hsub'⟩, hgot'⟩ := h'
  refine ⟨⟨first ++ second, ?_, hsub.append hsub'⟩, hgot.trans hgot'⟩
  rw [hsecond, hfirst, List.append_assoc]

theorem goesOn_step (t : Traffic) (incident : Incident) (line : Nat) :
    t.GoesOn (t.step incident) line (incident.texts line) := by
  cases incident with
  | call => refine goesOn_of_eq ?_ ?_ _ <;> rfl
  | caller n d =>
    cases hline : t.relay.lines[n]? with
    | none =>
      rw [step_caller_none hline]
      exact goesOn_of_eq rfl rfl _
    | some l =>
      obtain ⟨-, hrecord, hothers⟩ := step_caller hline (d := d) rfl
      by_cases hn : line = n
      · subst hn
        refine ⟨⟨l.link.put d, by rw [hrecord], ?_⟩, by simp [hrecord]⟩
        cases d with
        | say text => cases hmore : l.link.up.takesMore <;> simp [Link.put, Incident.texts, hmore]
        | _ => exact List.nil_sublist _
      · exact goesOn_of_eq (by rw [hothers line hn]) (by rw [hothers line hn]) _
  | attend n =>
    cases hattend : t.relay.attend n with
    | none =>
      rw [step_attend_none hattend]
      exact goesOn_of_eq rfl rfl _
    | some r =>
      obtain ⟨l, hline⟩ := Relay.exists_line_of_attend hattend
      obtain ⟨-, hd⟩ := step_attend hline hattend rfl
      by_cases hn : line = n
      · subst hn
        exact goesOn_of_eq (by rw [hd.record]) (by rw [hd.record]) _
      · exact goesOn_of_eq (by rw [hd.others line hn]) (by rw [hd.others line hn]) _

theorem goesOn_run (t : Traffic) (incidents : List Incident) (line : Nat) :
    t.GoesOn (t.run incidents) line (incidents.flatMap (·.texts line)) := by
  induction incidents generalizing t with
  | nil => exact goesOn_of_eq rfl rfl _
  | cons incident incidents ih => exact (t.goesOn_step incident line).trans (ih _)

theorem relay_step_caller (t : Traffic) (n : Nat) (d : Doing) :
    (t.step (.caller n d)).relay = t.relay.near n d := by
  cases hline : t.relay.lines[n]? with
  | none =>
    rw [step_caller_none hline]
    unfold Relay.near Relay.onLink
    rw [List.modify_eq_self (List.getElem?_eq_none_iff.mp hline)]
  | some l => exact (step_caller hline rfl).1

theorem relay_run_callers (t : Traffic) (line : Nat) (ds : List Doing) :
    (t.run (ds.map (.caller line))).relay = ds.foldl (fun r d => r.near line d) t.relay := by
  induction ds generalizing t with
  | nil => rfl
  | cons d ds ih =>
    rw [List.map_cons, List.foldl_cons, ← relay_step_caller]
    exact ih _

theorem relay_run_effects (t : Traffic) (effects : List Effect) :
    (t.run (effects.filterMap Effect.incident?)).relay = effects.foldl Relay.carry t.relay := by
  induction effects generalizing t with
  | nil => rfl
  | cons e effects ih =>
    cases e with
    | send line message | hangUp line =>
      rw [List.foldl_cons, Relay.carry, ← relay_step_caller]
      exact ih _
    | _ => exact ih t

/-- A caller that takes what comes down has got it. -/
theorem got_take {link : Link} {text : String} {rest : List String}
    (hlink : t.relay.link? line = some link) (hwaiting : link.down.waiting = text :: rest) :
    ((t.run [.caller line .take]).records line).got = (t.records line).got ++ [text] := by
  obtain ⟨l, hline, rfl⟩ := Option.map_eq_some_iff.mp hlink
  obtain ⟨-, hrecord, -⟩ := step_caller hline (d := .take) rfl
  have hone : t.run [.caller line .take] = t.step (.caller line .take) := rfl
  rw [hone, hrecord]
  simp [Link.got, hwaiting]

/-- What effects put on a line is what the client writes on it. -/
theorem texts_of_effects (effects : List Effect) (line : Nat) :
    (effects.filterMap Effect.incident?).flatMap (·.texts line) =
      (effects.filterMap (Effect.on? line)).map Message.text := by
  induction effects with
  | nil => rfl
  | cons e effects ih =>
    cases e with
    | send l message =>
      have hsend : ((Effect.send l message :: effects).filterMap Effect.incident?).flatMap
          (·.texts line) = (if l = line then [message.text] else []) ++
            (effects.filterMap Effect.incident?).flatMap (·.texts line) := rfl
      rw [hsend, ih, List.filterMap_cons]
      by_cases hl : l = line
      · simp [Effect.on?, hl]
      · simp [Effect.on?, hl]
    | _ => exact ih

end Traffic

/-! ## Work of a task -/

/-- A text by which watchers get this line of script. -/
def isShown (text shown : String) : Bool := Action.ofText? shown = some (.submit text)

/-- What a task does on the lines, and what it has got there before it tells its client. -/
structure Task.Incidents (j : Task) (t t' : Traffic) (news : List Event) : Prop where
  texts : ∀ line, t.GoesOn t' line
    (if j.phase = .calling ∧ line = t.relay.lines.length then [j.greeting.text] else [])
  ready : ∀ g id line, .presenterReady g id line ∈ news →
    ∃ text ∈ (t'.records line).got, assignedId? text = some id
  remote : ∀ g action, .remote g action ∈ news → ∃ line id shown, news = [.remote g action] ∧
    j.phase = .listening line ∧ j.purpose = .watch id ∧ Action.ofText? shown = some action ∧
    (t'.records line).got = (t.records line).got ++ [shown]

/-- A task works by some incidents on the lines. -/
theorem Task.Works.exists_incidents {j : Task} {t : Traffic} {route? : Option Route} {r : Relay}
    {phase : Phase} {news : List Event} (h : j.Works t.relay route? r phase news)
    (hroute : route? ≠ some .byHand) :
    ∃ incidents, (t.run incidents).relay = r ∧ j.Incidents t (t.run incidents) news := by
  have htake : ∀ line, (t.run [.caller line .take]).relay = t.relay.near line .take :=
    fun line => t.relay_run_callers line [.take]
  have hsilent : ∀ n (ds : List Doing), (∀ d ∈ ds, ∀ text, d ≠ .say text) → ∀ line,
      t.GoesOn (t.run (ds.map (.caller n))) line
        (if j.phase = .calling ∧ line = t.relay.lines.length then [j.greeting.text] else []) := by
    intro n ds hds line
    have hgoes := t.goesOn_run (ds.map (.caller n)) line
    have hnone : (ds.map (Incident.caller n)).flatMap (·.texts line) = [] := by
      simp only [List.flatMap_eq_nil_iff, List.mem_map]
      rintro _ ⟨d, hd, rfl⟩
      cases d with
      | say text => exact absurd rfl (hds _ hd text)
      | _ => rfl
    rw [hnone] at hgoes
    obtain ⟨⟨new, hnew, hsub⟩, hgot⟩ := hgoes
    exact ⟨⟨new, hnew, hsub.trans (List.nil_sublist _)⟩, hgot⟩
  cases h with
  | @calls attendant hphase ha =>
    have hgreeting : attendant = .greeting := by
      cases route? with
      | none => simp at ha
      | some route =>
        cases route with
        | relay => simpa [Route.attendant?] using ha.symm
        | nowhere => simp [Route.attendant?] at ha
        | byHand => exact absurd rfl hroute
    subst hgreeting
    refine ⟨[.call, .caller t.relay.lines.length (.say j.greeting.text)], ?_, ?_, ?_, ?_⟩
    · exact (t.step .call).relay_run_callers _ [_]
    · intro line
      have hgoes := t.goesOn_run [.call, .caller t.relay.lines.length (.say j.greeting.text)] line
      by_cases hline : line = t.relay.lines.length
      · rw [if_pos ⟨hphase, hline⟩]
        simpa [Incident.texts, hline] using hgoes
      · rw [if_neg fun h => hline h.2]
        simpa [Incident.texts, Ne.symm hline] using hgoes
    · intro g id line hevent
      unfold Task.calledNews at hevent
      cases hpurpose : j.purpose <;> simp_all
    · intro g action hevent
      unfold Task.calledNews at hevent
      cases hpurpose : j.purpose <;> simp_all
  | quits hphase hnews line ds hds =>
    refine ⟨ds.map (.caller line), t.relay_run_callers line ds, hsilent line ds hds, ?_, ?_⟩
    · intro g id line hevent
      rcases hnews with rfl | rfl <;> simp at hevent
    · intro g action hevent
      rcases hnews with rfl | rfl <;> simp at hevent
  | @assigned line link text id rest hphase hlink hwaiting hid =>
    refine ⟨[.caller line .take], htake line, hsilent line [.take] (by simp), ?_, by simp⟩
    intro g i other hevent
    simp only [List.mem_singleton, Event.presenterReady.injEq] at hevent
    obtain ⟨-, rfl, rfl⟩ := hevent
    refine ⟨text, ?_, hid⟩
    rw [Traffic.got_take hlink hwaiting]
    exact List.mem_append_right _ (List.mem_singleton.mpr rfl)
  | @hears line link text id rest action hphase hpurpose hlink hwaiting haction =>
    refine ⟨[.caller line .take], htake line, hsilent line [.take] (by simp), by simp, ?_⟩
    intro g heard hevent
    simp only [List.mem_singleton, Event.remote.injEq] at hevent
    obtain ⟨rfl, rfl⟩ := hevent
    exact ⟨line, id, text, rfl, hphase, hpurpose, haction, Traffic.got_take hlink hwaiting⟩
  | @passesOver line hphase hpurpose =>
    exact ⟨[.caller line .take], htake line, hsilent line [.take] (by simp), by simp, by simp⟩

/-! ## Records of a run -/

/-- The first message of a caller. -/
def Caller.greeting (caller : Caller) : Message Action :=
  match caller.purpose with
  | .present => .startSharing
  | .watch id => .startWatching id

theorem eq_of_countP_le_one {α : Type} {p : α → Bool} {xs : List α} (h : xs.countP p ≤ 1)
    {i j : Nat} {x y : α} (hi : xs[i]? = some x) (hj : xs[j]? = some y) (hx : p x = true)
    (hy : p y = true) : i = j := by
  induction xs generalizing i j with
  | nil => simp at hi
  | cons z xs ih =>
    have hnone : ∀ {k : Nat} {w : α}, xs[k]? = some w → p w = true → p z = false := by
      intro k w hk hw
      have hpos : 0 < xs.countP p := List.countP_pos_iff.mpr ⟨w, List.mem_of_getElem? hk, hw⟩
      by_contra hz
      rw [List.countP_cons_of_pos (by simpa using hz)] at h
      omega
    cases i with
    | zero =>
      obtain rfl : z = x := by simpa using hi
      cases j with
      | zero => rfl
      | succ j => simp [hnone (by simpa using hj) hy] at hx
    | succ i =>
      cases j with
      | zero =>
        obtain rfl : z = y := by simpa using hj
        simp [hnone (by simpa using hi) hx] at hy
      | succ j =>
        have hle : xs.countP p ≤ 1 := (List.sublist_cons_self z xs).countP_le.trans h
        have hsame : i = j := ih hle (by simpa using hi) (by simpa using hj)
        rw [hsame]

namespace Chronicle

variable {c c' : Chronicle} {callers more : List Caller} {t t' : Traffic} {s : Nat}

/-- What the record of all traffic says: nobody has said anything on a line but its caller, whose
first message was its greeting; the ids that clients were told have come over their lines; and so
have the lines of script that they were told, if they watch one session only. -/
structure Recorded (c : Chronicle) (callers : List Caller) (t : Traffic) : Prop where
  exact : t.Exact
  relay : t.relay = c.network.relay
  said : ∀ line caller, callers[line]? = some caller → (t.records line).said.Sublist
    (caller.greeting.text :: (c.deeds.flatMap (·.written line)).map Message.text)
  assigned : ∀ s g id line, .presenterReady g id line ∈ c.news s →
    ∃ text ∈ (t.records line).got, assignedId? text = some id
  heard : ∀ s text, (c.wanted s).length ≤ 1 → (c.news s).countP (·.repeats text) = 0 ∨
    ∃ (line g : Nat) (id : String), callers[line]? = some ⟨s, g, .watch id⟩ ∧
      (c.news s).countP (·.repeats text) ≤ (t.records line).got.countP (isShown text)

theorem recorded_start (ids : SessionIds) (seats : List Seat) :
    (start ids seats).Recorded [] (.start ids) where
  exact := Traffic.exact_start ids
  relay := rfl
  said := by simp
  assigned := by simp [news_start]
  heard := by simp [news_start]

theorem wanted_sublist {new : List Deed} (hdeeds : c'.deeds = c.deeds ++ new) (s : Nat) :
    (c.wanted s).Sublist (c'.wanted s) := by
  unfold wanted
  rw [deedsOf_append hdeeds, List.filterMap_append]
  exact List.sublist_append_left _ _

/-- What is told to nobody leaves all of it as it is. -/
theorem Recorded.quietly (h : c.Recorded callers t) {new : List Deed} (hexact : t'.Exact)
    (hrelay : t'.relay = c'.network.relay) (hdeeds : c'.deeds = c.deeds ++ new)
    (hnews : ∀ u, c'.news u = c.news u)
    (hgoes : ∀ line, t.GoesOn t' line ((new.flatMap (·.written line)).map Message.text)) :
    c'.Recorded callers t' := by
  refine ⟨hexact, hrelay, ?_, ?_, ?_⟩
  · intro line caller hline
    obtain ⟨said, hsaid, hsub⟩ := (hgoes line).said
    rw [hsaid, hdeeds, List.flatMap_append, List.map_append, ← List.cons_append]
    exact (h.said line caller hline).append hsub
  · intro s g id line hevent
    obtain ⟨text, htext, hid⟩ := h.assigned s g id line (hnews s ▸ hevent)
    exact ⟨text, (hgoes line).got.subset htext, hid⟩
  · intro s text hwanted
    rw [hnews]
    rcases h.heard s text ((wanted_sublist hdeeds s).length_le.trans hwanted) with
      hnone | ⟨line, g, id, hline, hle⟩
    · exact Or.inl hnone
    · exact Or.inr ⟨line, g, id, hline, hle.trans (hgoes line).got.sublist.countP_le⟩

/-- A client that watches one session only has one line for that. -/
theorem Called.watcher_inj (h : c.Called callers) (hwanted : (c.wanted s).length ≤ 1)
    {line line' g g' : Nat} {id id' : String} (hline : callers[line]? = some ⟨s, g, .watch id⟩)
    (hline' : callers[line']? = some ⟨s, g', .watch id'⟩) : line = line' := by
  have hbooked := h.booked s fun _ => true
  have hall : (c.wanted s).countP (fun _ => true) = (c.wanted s).length := by simp
  have hone : callers.countP (·.asksFor s fun _ => true) ≤ 1 := by omega
  exact eq_of_countP_le_one hone hline hline' (by simp [Caller.asksFor])
    (by simp [Caller.asksFor])

/-- What a task does is on record. -/
theorem Recorded.works (h : c.Recorded callers t) (hcalled : c.Called callers)
    (hnext : c'.Called (callers ++ more)) {n : Nat} {j : Task} {route? : Option Route}
    {phase : Phase} {news : List Event} (hj : c.network.jobs[n]? = some j)
    (hworks : j.Works t.relay route? c'.network.relay phase news) (hdeeds : c'.deeds = c.deeds)
    (hnews : ∀ u, ∃ told, c'.news u = c.news u ++ told ∧
      told.Sublist (if u = j.station then news else []))
    (hjobs : c'.network.jobs = c.network.jobs.set n { j with phase })
    (hroute : route? ≠ some .byHand) :
    ∃ incidents, c'.Recorded (callers ++ more) (t.run incidents) := by
  obtain ⟨incidents, hrelay, hdone⟩ := hworks.exists_incidents hroute
  have hmem : j ∈ c.network.jobs := List.mem_of_getElem? hj
  have hlength : callers.length = t.relay.lines.length := h.relay ▸ hcalled.length
  have hgot : ∀ line, (t.records line).got <+: ((t.run incidents).records line).got :=
    fun line => (hdone.texts line).got
  have hwanted : ∀ s, c'.wanted s = c.wanted s := by
    intro s
    simp only [wanted, deedsOf, hdeeds]
  refine ⟨incidents, (h.exact.run incidents).exact, hrelay, ?_, ?_, ?_⟩
  · intro line caller hline
    obtain ⟨new, hnew, hsub⟩ := (hdone.texts line).said
    rw [hnew, hdeeds]
    by_cases hlt : line < callers.length
    · rw [List.getElem?_append_left hlt] at hline
      rw [if_neg (by omega), List.sublist_nil] at hsub
      rw [hsub, List.append_nil]
      exact h.said line caller hline
    · -- The line is new, so the task has just called on it.
      have hbound : line < c'.network.relay.lines.length := by
        rw [← hnext.length]
        exact (List.getElem?_eq_some_iff.mp hline).1
      rcases hworks.length_lines with ⟨hcalling, hphase, -, hmore⟩ | hsame
      · have hhere : line = t.relay.lines.length := by omega
        have hnone : t.records line = .empty :=
          h.exact.beyond line (List.getElem?_eq_none_iff.mpr (by omega))
        have hon : ({ j with phase } : Task).isOn line := by
          rw [hphase, hhere]
          unfold Task.isOn Task.waits
          cases j.purpose <;> simp
        have hnow : { j with phase } ∈ c'.network.jobs := by
          rw [hjobs]
          exact List.mem_set (List.getElem?_eq_some_iff.mp hj).1 _
        have hcaller := hnext.jobs _ hnow line hon
        rw [hline, Option.some.injEq] at hcaller
        rw [if_pos ⟨hcalling, hhere⟩] at hsub
        have hgreeting : caller.greeting = j.greeting := by rw [hcaller]; rfl
        rw [hnone, hgreeting]
        exact hsub.trans (List.singleton_sublist.mpr List.mem_cons_self)
      · omega
  · intro s g id line hevent
    obtain ⟨told, htold, hsub⟩ := hnews s
    rcases mem_news_cases htold hsub hevent with hold | ⟨-, hnew⟩
    · obtain ⟨text, htext, hid⟩ := h.assigned s g id line hold
      exact ⟨text, (hgot line).subset htext, hid⟩
    · exact hdone.ready g id line hnew
  · intro s text hone
    rw [hwanted] at hone
    obtain ⟨told, htold, hsub⟩ := hnews s
    rw [htold, List.countP_append]
    have hkeeps : ∀ (line : Nat) caller, callers[line]? = some caller →
        (callers ++ more)[line]? = some caller := by
      intro line caller hline
      rw [List.getElem?_append_left (List.getElem?_eq_some_iff.mp hline).1, hline]
    by_cases hnone : told.countP (·.repeats text) = 0
    · rw [hnone, Nat.add_zero]
      rcases h.heard s text hone with hquiet | ⟨line, g, id, hline, hle⟩
      · exact Or.inl hquiet
      · exact Or.inr ⟨line, g, id, hkeeps line _ hline, hle.trans (hgot line).sublist.countP_le⟩
    · -- The task has told of one more, and it has come over the line of the client.
      obtain ⟨event, hmem', hrepeats⟩ := List.countP_pos_iff.mp (Nat.pos_of_ne_zero hnone)
      have hevent := hsub.subset hmem'
      split at hevent
      · rename_i hs
        subst hs
        rw [if_pos rfl] at hsub
        cases event with
        | remote g action =>
          obtain ⟨line, id, shown, hall, hphase, hpurpose, hshown, hnow⟩ :=
            hdone.remote g action hevent
          have hcaller := hcalled.jobs j hmem line (Or.inr hphase)
          rw [Task.caller, hpurpose] at hcaller
          have hisShown : isShown text shown = true := by
            cases action with
            | submit l =>
              simp only [Event.repeats, decide_eq_true_eq] at hrepeats
              simp [isShown, hshown, hrepeats]
            | _ => cases hrepeats
          have hold : (c.news j.station).countP (·.repeats text) ≤
              (t.records line).got.countP (isShown text) := by
            rcases h.heard j.station text hone with hquiet | ⟨line', g', id', hline', hle⟩
            · rw [hquiet]
              exact Nat.zero_le _
            · rw [hcalled.watcher_inj hone hcaller hline']
              exact hle
          have hlast : told.countP (·.repeats text) ≤ 1 := by
            have hle := hsub.length_le
            rw [hall] at hle
            exact List.countP_le_length.trans hle
          refine Or.inr ⟨line, j.generation, id, hkeeps line _ hcaller, ?_⟩
          rw [hnow, List.countP_append]
          have hsingle : [shown].countP (isShown text) = 1 := by simp [hisShown]
          omega
        | _ => cases hrepeats
      · simp at hevent

theorem Recorded.step (h : c.Recorded callers t) (hcalled : c.Called callers)
    {happening : Happening} (hnext : (c.step happening).Called (callers ++ more))
    (hroutes : ∀ u, c.network.route? u ≠ some .byHand) :
    ∃ incidents, (c.step happening).Recorded (callers ++ more) (t.run incidents) := by
  -- Where there is no new line there is no new caller.
  have hnobody : (c.step happening).network.relay.lines.length = c.network.relay.lines.length →
      callers ++ more = callers := by
    intro hsame
    have hlength := hnext.length
    rw [hsame, ← hcalled.length, List.length_append] at hlength
    rw [List.eq_nil_of_length_eq_zero (by omega : more.length = 0), List.append_nil]
  cases c.moves_step happening with
  | works n j phase news hj hworks hdeeds hclients _ hnews hjobs =>
    rw [← h.relay] at hworks
    exact h.works hcalled hnext hj hworks hdeeds hnews hjobs (hroutes _)
  | turns d hclient hevent hdeeds hclients _ hnews hjobs hrelay =>
    rw [hnobody (by rw [hrelay, Relay.length_foldl_carry])]
    have hwritten : ∀ line, t.GoesOn (t.run (d.turn.effects.filterMap Effect.incident?)) line
        (([d].flatMap (·.written line)).map Message.text) := by
      intro line
      have hgoes := t.goesOn_run (d.turn.effects.filterMap Effect.incident?) line
      rw [Traffic.texts_of_effects] at hgoes
      simpa [Deed.written, Turn.written] using hgoes
    refine ⟨_, h.quietly (h.exact.run _).exact ?_ hdeeds hnews hwritten⟩
    rw [Traffic.relay_run_effects, h.relay, hrelay]
  | rests hdeeds hclients _ hnews hjobs hrelay =>
    have hsilent : (c.step happening).deeds = c.deeds ++ [] := by rw [hdeeds, List.append_nil]
    rcases hrelay with hrelay | ⟨line, hrelay⟩ | ⟨line, d, hhand, -⟩
    · rw [hnobody (by rw [hrelay])]
      refine ⟨[], h.quietly h.exact ?_ hsilent hnews fun line => ?_⟩
      · exact h.relay.trans hrelay.symm
      · exact t.goesOn_run [] line
    · rw [hnobody (Relay.length_attend hrelay)]
      rw [← h.relay] at hrelay
      refine ⟨[.attend line], h.quietly (h.exact.run _).exact ?_ hsilent hnews fun m => ?_⟩
      · obtain ⟨l, hl⟩ := Relay.exists_line_of_attend hrelay
        exact (Traffic.step_attend hl hrelay rfl).1
      · exact t.goesOn_run [.attend line] m
    · -- Nobody answers by hand where no call ends up.
      rw [← h.relay] at hhand
      cases hline : t.relay.lines[line]? with
      | none => simp [hline] at hhand
      | some l =>
        have hsuits := (h.exact.suits line l hline).1
        rw [hline, Option.any_some] at hhand
        unfold Line.isByHand at hhand
        unfold Traffic.Suits at hsuits
        cases hattendant : l.attendant <;> simp_all

/-- All that has come over the lines in a run can be recorded. -/
theorem recorded_run {ids : SessionIds} {seats : List Seat} (hroutes : ∀ seat ∈ seats, seat.route ≠ .byHand)
    (hs : List Happening) : ∃ callers t, ((start ids seats).run hs).Called callers ∧
      ((start ids seats).run hs).Recorded callers t := by
  have hall : (∀ u, ((start ids seats).run hs).network.route? u ≠ some .byHand) ∧
      ∃ callers t, ((start ids seats).run hs).Called callers ∧
        ((start ids seats).run hs).Recorded callers t := by
    refine run_induction (P := fun c => (∀ u, c.network.route? u ≠ some .byHand) ∧
      ∃ callers t, c.Called callers ∧ c.Recorded callers t)
      ⟨?_, [], .start ids, called_start ids seats, recorded_start ids seats⟩ ?_ hs
    · intro u
      unfold start Network.route?
      rw [List.getElem?_map]
      cases hseat : seats[u]? with
      | none => simp
      | some seat => simpa [Seat.station] using hroutes seat (List.mem_of_getElem? hseat)
    · rintro c happening ⟨hroute, callers, t, hcalled, hrecorded⟩
      obtain ⟨more, hnext⟩ := hcalled.step happening
      obtain ⟨incidents, hthen⟩ := hrecorded.step hcalled hnext hroute
      refine ⟨fun u => ?_, _, _, hnext, hthen⟩
      cases c.moves_step happening with
      | works _ _ _ _ _ _ _ _ hsame => exact hsame u ▸ hroute u
      | turns _ _ _ _ _ hsame => exact hsame u ▸ hroute u
      | rests _ _ hsame => exact hsame u ▸ hroute u
  exact hall.2

end Chronicle

end TurtleScript
