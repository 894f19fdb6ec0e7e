-- A line of script that is passed on from client to client. Who watches
-- applies what it hears and passes it on to those who watch it; so nobody gets
-- a line twice, unless it comes back to the client where it was submitted.
import Mathlib.Data.List.Induction
import Mathlib.Logic.Relation
import TurtleScript.Proofs.Sharing.Recording

namespace TurtleScript

open SessionIds (counted)

/-! ## What has come over a line -/

/-- Those of these messages that watchers read as a line of script were passed on as that line. -/
theorem countP_passed_le (text : String) (messages : List (Message Action)) :
    ((messages.map Message.text).filterMap passedAction?).countP (isShown text) ≤
      messages.count (.newAction (.submit text)) := by
  induction messages with
  | nil => exact Nat.le_refl _
  | cons message messages ih =>
    rw [List.map_cons, List.filterMap_cons]
    cases hpassed : passedAction? message.text with
    | none => exact ih.trans (List.count_le_count_cons ..)
    | some shown =>
      rw [List.countP_cons]
      by_cases hshown : isShown text shown = true
      · have hread : Action.ofText? shown = some (.submit text) := by simpa [isShown] using hshown
        have hmessage : message = .newAction (.submit text) := by
          cases message with
          | startSharing => simp [passedAction?, relayed?_startSharing] at hpassed
          | startWatching id => simp [passedAction?, relayed?_startWatching] at hpassed
          | newAction inner => rw [eq_submit_of_passedAction? hpassed hread]
        rw [if_pos hshown, hmessage, List.count_cons_self]
        omega
      · rw [if_neg hshown]
        exact ih.trans (List.count_le_count_cons ..)

namespace Chronicle

variable {c c' : Chronicle} {callers : List Caller} {t : Traffic} {s : Nat} {text : String}

/-- A user has wanted to watch a session that the client of a station has presented. -/
def Watches (c : Chronicle) (s a : Nat) : Prop :=
  ∃ id ∈ c.wanted s, ∃ g line, c.Hears a g id line

section Record

variable (h : c.Recorded callers t) (hcalled : c.Called callers) (hwired : c.Wired)

include h hcalled in
theorem Recorded.heard_of_said {line : Nat} {caller : Caller}
    (hline : callers[line]? = some caller) :
    (t.records line).heard <+: (t.records line).said := by
  have hlt : line < t.relay.lines.length := by
    rw [h.relay, ← hcalled.length]
    exact (List.getElem?_eq_some_iff.mp hline).1
  exact (h.exact.suits line _ (List.getElem?_eq_getElem hlt)).2.heard

include h hcalled hwired in
/-- Who watches has asked for one session only. -/
theorem Recorded.request_of_watch {line g : Nat} {id : String}
    (hline : callers[line]? = some ⟨s, g, .watch id⟩) {m : Message Json}
    (hm : (t.records line).request? = some m) : m = .startWatching id := by
  have hsilent : c.deeds.flatMap (·.written line) = [] := by
    refine List.flatMap_eq_nil_iff.mpr fun d hd => ?_
    by_contra hwritten
    obtain ⟨g', -, id', hheard⟩ := hwired.wrote d hd line hwritten
    rw [hcalled.caller_of_hears hheard] at hline
    cases hline
  have hsaid := h.said line _ hline
  rw [hsilent, List.map_nil] at hsaid
  have hheard := (h.heard_of_said hcalled hline).sublist.trans hsaid
  unfold Record.request? at hm
  rcases List.sublist_singleton.mp hheard with hnone | hone
  · simp [hnone] at hm
  · have hrequest : Message.relayed? (Message.startWatching id : Message Action).text = some m := by
      simpa [hone, Caller.greeting] using hm
    rw [relayed?_startWatching, Option.some.injEq] at hrequest
    exact hrequest.symm

include h hcalled hwired in
/-- Who was told the id of a session has called to present. -/
theorem Recorded.caller_of_presents {p : Nat} {id : String} (hp : t.Presents p id) :
    ∃ a g, callers[p]? = some ⟨a, g, .present⟩ := by
  cases hcaller : callers[p]? with
  | none =>
    have hnone : t.relay.lines[p]? = none := by
      rw [List.getElem?_eq_none_iff, h.relay, ← hcalled.length]
      exact List.getElem?_eq_none_iff.mp hcaller
    have hrequest := hp.1
    rw [h.exact.beyond p hnone] at hrequest
    cases hrequest
  | some caller =>
    obtain ⟨a, g, purpose⟩ := caller
    cases purpose with
    | present => exact ⟨a, g, rfl⟩
    | watch id' =>
      have hasked := h.request_of_watch hcalled hwired hcaller hp.1
      cases hasked

include h hcalled in
/-- A presenter has passed on no more than was written on its line. -/
theorem Recorded.countP_actions_le {p : Nat} {caller : Caller}
    (hp : callers[p]? = some caller) (text : String) :
    (t.records p).actions.countP (isShown text) ≤
      (c.deeds.flatMap (·.written p)).count (.newAction (.submit text)) := by
  have hheard := (h.heard_of_said hcalled hp).sublist.trans (h.said p caller hp)
  have htail : (t.records p).heard.tail.Sublist
      ((c.deeds.flatMap (·.written p)).map Message.text) := hheard.tail
  exact (htail.filterMap passedAction?).countP_le.trans (countP_passed_le ..)

include h hcalled hwired in
/-- What a watcher is told has been written by somebody whom it watches. -/
theorem Recorded.exists_source (hwanted : (c.wanted s).length ≤ 1)
    (hheard : 0 < (c.news s).countP (·.repeats text)) :
    ∃ a p, c.Watches s a ∧ (∀ d ∈ c.deeds, d.written p ≠ [] → d.station = a) ∧
      (c.news s).countP (·.repeats text) ≤
        (c.deeds.flatMap (·.written p)).count (.newAction (.submit text)) := by
  obtain hnone | ⟨w, g, id, hw, hgot⟩ := h.heard s text hwanted
  · omega
  have htold : (t.records w).got.Sublist (t.told w) := List.sublist_append_left _ _
  have hcount : (c.news s).countP (·.repeats text) ≤ (t.told w).countP (isShown text) :=
    hgot.trans htold.countP_le
  rcases h.exact.fed w with hquiet | ⟨id', hpresents⟩ | ⟨id', p, hasks, hp, hfed⟩
  · rw [hquiet, List.countP_nil] at hcount
    omega
  · have hasked := h.request_of_watch hcalled hwired hw hpresents.1
    cases hasked
  · have hasked := h.request_of_watch hcalled hwired hw hasks
    rw [Message.startWatching.injEq] at hasked
    subst hasked
    obtain ⟨a, g', hcaller⟩ := h.caller_of_presents hcalled hwired hp
    have hall : (c.news s).countP (·.repeats text) ≤
        (c.deeds.flatMap (·.written p)).count (.newAction (.submit text)) :=
      calc (c.news s).countP (·.repeats text)
          ≤ (t.told w).countP (isShown text) := hcount
        _ ≤ (t.records p).actions.countP (isShown text) := hfed.sublist.countP_le
        _ ≤ _ := h.countP_actions_le hcalled hcaller text
    have hwriter : ∀ d ∈ c.deeds, d.written p ≠ [] →
        d.station = a ∧ ∃ g id, c.Hears d.station g id p := by
      intro d hd hwritten
      obtain ⟨g'', -, id'', hhears⟩ := hwired.wrote d hd p hwritten
      have hsame := hcalled.caller_of_hears hhears
      rw [hcaller, Option.some.injEq, Caller.mk.injEq] at hsame
      exact ⟨hsame.1.symm, g'', id'', hhears⟩
    refine ⟨a, p, ?_, fun d hd hwritten => (hwriter d hd hwritten).1, hall⟩
    -- Somebody has written on the line, so it has heard of it, and of this id.
    have hsome : (.newAction (.submit text)) ∈ c.deeds.flatMap (·.written p) :=
      List.count_pos_iff.mp (by omega)
    obtain ⟨d, hd, hmem⟩ := List.mem_flatMap.mp hsome
    obtain ⟨rfl, g'', id'', hhears⟩ := hwriter d hd (List.ne_nil_of_mem hmem)
    have hid : id'' = id' := by
      obtain ⟨e, he, -, hready⟩ := hhears
      obtain ⟨told, htext, hassigned⟩ := h.assigned _ g'' id'' p
        (hready ▸ mem_news_of_deed he (by simp [hready, Event.isNews]))
      have hone : told ∈ t.told p := List.mem_append_left _ htext
      rw [hp.2, List.mem_singleton] at hone
      rw [hone, assignedId?_assignedText, Option.some.injEq] at hassigned
      exact hassigned.symm
    have hbooked := hcalled.booked s (· = id')
    have hpos : 0 < callers.countP (·.asksFor s (· = id')) :=
      List.countP_pos_iff.mpr ⟨_, List.mem_of_getElem? hw, by simp [Caller.asksFor]⟩
    have hwants : 0 < (c.wanted s).countP (· = id') := by omega
    obtain ⟨id, hid', hsame⟩ := List.countP_pos_iff.mp hwants
    rw [decide_eq_true_eq] at hsame
    exact ⟨id, hid', g'', p, hsame ▸ hid ▸ hhears⟩

end Record

/-! ## Tallies of a run -/

/-- How often the client of a station has passed on a line of script. -/
def timesPassed (c : Chronicle) (text : String) (s : Nat) : Nat :=
  ((c.deedsOf s).flatMap (·.turn.dispatched)).count (.share (.submit text))

/-- A client has dispatched a line of script no more often than its user has submitted it and it was
told of it. -/
theorem count_dispatched_le (c : Chronicle) (s : Nat) {a : Action}
    (ha : a = .submit text ∨ a = .share (.submit text)) :
    ((c.deedsOf s).flatMap (·.turn.dispatched)).count a ≤
      (c.deedsOf s).countP (·.event.enters text) + (c.news s).countP (·.repeats text) := by
  have hall : ∀ ds : List Deed, (ds.flatMap (·.turn.dispatched)).count a ≤
      ds.countP (·.event.enters text) + ds.countP (·.event.repeats text) := by
    intro ds
    induction ds with
    | nil => exact Nat.le_refl _
    | cons d ds ih =>
      have hone : d.turn.dispatched.count a ≤
          if (d.event.enters text || d.event.repeats text) = true then 1 else 0 :=
        (d.client.turns_process d.event).count_dispatched ha
      have hsum : (if (d.event.enters text || d.event.repeats text) = true then 1 else 0) ≤
          (if d.event.enters text = true then 1 else 0) +
            if d.event.repeats text = true then 1 else 0 := by
        cases d.event.enters text <;> cases d.event.repeats text <;> decide
      rw [List.flatMap_cons, List.count_append, List.countP_cons, List.countP_cons]
      omega
  have hnews := c.countP_deedsOf_le s (p := (·.repeats text)) fun event hevent => by
    cases event with
    | action => cases hevent
    | _ => rfl
  exact (hall _).trans (Nat.add_le_add_left hnews _)

/-- What a client has written on a line it has sent. -/
theorem count_written_le_sent (ds : List Deed) (p : Nat) (m : Message Action) :
    (ds.flatMap (·.written p)).count m ≤ (ds.flatMap (·.turn.sent)).count m := by
  have heffects : ∀ effects : List Effect,
      (effects.filterMap (Effect.on? p)).Sublist (effects.filterMap Effect.message?) := by
    intro effects
    induction effects with
    | nil => exact List.Sublist.refl _
    | cons e effects ih =>
      cases e with
      | send line message =>
        by_cases hline : line = p
        · simpa [List.filterMap_cons, Effect.on?, Effect.message?, hline] using ih
        · simpa [List.filterMap_cons, Effect.on?, Effect.message?, hline] using ih.cons message
      | _ => exact ih
  induction ds with
  | nil => exact Nat.le_refl _
  | cons d ds ih =>
    have hone : (d.written p).count m ≤ d.turn.sent.count m := (heffects d.turn.effects).count_le m
    rw [List.flatMap_cons, List.flatMap_cons, List.count_append, List.count_append]
    omega

section Run

variable {ids : SessionIds} {seats : List Seat} {hs : List Happening}

/-- What a client has sent it has passed on. -/
theorem count_sent_le (hfresh : ∀ d ∈ ((start ids seats).run hs).deeds,
    d.event ≠ .action (.startSharing false)) {client : Client}
    (hclient : ((start ids seats).run hs).network.client? s = some client) (text : String) :
    ((((start ids seats).run hs).deedsOf s).flatMap (·.turn.sent)).count
        (.newAction (.submit text)) ≤ ((start ids seats).run hs).timesPassed text s := by
  let Passes : List Deed → Client → Prop := fun ds client =>
    (∀ d ∈ ds, d.event ≠ .action (.startSharing false)) →
      (ds.flatMap (·.turn.sent)).count (Message.newAction (Action.submit text)) +
          client.kept.count (Message.newAction (Action.submit text)) ≤
        (ds.flatMap (·.turn.dispatched)).count (.share (.submit text))
  have hturn : ∀ ds d, Passes ds d.client → Passes (ds ++ [d]) d.turn.client := by
    intro ds d hbefore hds
    have hearlier := hbefore fun e he => hds e (List.mem_append_left _ he)
    have hnow : d.turn.sent.count (Message.newAction (Action.submit text)) +
        d.turn.client.kept.count (Message.newAction (Action.submit text)) ≤
          d.client.kept.count (Message.newAction (Action.submit text)) +
            d.turn.dispatched.count (.share (.submit text)) :=
      (d.client.turns_process d.event).count_sent (hds d (by simp)) (.submit text)
    simp only [List.flatMap_append, List.count_append, List.flatMap_cons, List.flatMap_nil,
      List.append_nil]
    omega
  have hpasses : Passes (((start ids seats).run hs).deedsOf s) client :=
    history_run (fun _ _ _ => Nat.le_refl _) hturn hclient
  have hall := hpasses fun d hd => hfresh d (mem_deedsOf.mp hd).1
  unfold timesPassed
  omega

/-- What was written on a line of a client it has passed on. -/
theorem count_written_le (hfresh : ∀ d ∈ ((start ids seats).run hs).deeds,
    d.event ≠ .action (.startSharing false)) {p a : Nat}
    (hwriter : ∀ d ∈ ((start ids seats).run hs).deeds, d.written p ≠ [] → d.station = a)
    (text : String) :
    (((start ids seats).run hs).deeds.flatMap (·.written p)).count (.newAction (.submit text)) ≤
      ((start ids seats).run hs).timesPassed text a := by
  have hmine : (((start ids seats).run hs).deedsOf a).flatMap (·.written p) =
      ((start ids seats).run hs).deeds.flatMap (·.written p) := by
    refine flatMap_filter_of_silent fun d hd hstation => ?_
    by_contra hwritten
    simp [hwriter d hd hwritten] at hstation
  rw [← hmine]
  by_cases hnone : ((start ids seats).run hs).deedsOf a = []
  · simp [hnone]
  · obtain ⟨d, hd⟩ := List.exists_mem_of_ne_nil _ hnone
    obtain ⟨hmem, rfl⟩ := mem_deedsOf.mp hd
    obtain ⟨-, client, hclient, -⟩ := (orderly_run ids seats hs).deeds d hmem
    exact (count_written_le_sent _ p _).trans (count_sent_le hfresh hclient text)

/-- What a watcher is told somebody has passed on whom it watches. -/
theorem exists_source (hroutes : ∀ seat ∈ seats, seat.route ≠ .byHand)
    (hfresh : ∀ d ∈ ((start ids seats).run hs).deeds, d.event ≠ .action (.startSharing false))
    (hwanted : (((start ids seats).run hs).wanted s).length ≤ 1) :
    (((start ids seats).run hs).news s).countP (·.repeats text) = 0 ∨
      ∃ a, ((start ids seats).run hs).Watches s a ∧
        (((start ids seats).run hs).news s).countP (·.repeats text) ≤
          ((start ids seats).run hs).timesPassed text a := by
  obtain ⟨callers, t, hcalled, hrecorded⟩ := recorded_run hroutes hs
  rcases Nat.eq_zero_or_pos ((((start ids seats).run hs).news s).countP (·.repeats text)) with
    hnone | hheard
  · exact Or.inl hnone
  · obtain ⟨a, p, hwatches, hwriter, hle⟩ :=
      hrecorded.exists_source hcalled (wired_run ids seats hs) hwanted hheard
    exact Or.inr ⟨a, hwatches, hle.trans (count_written_le hfresh hwriter text)⟩

end Run

/-! ## From client to client -/

/-- A line of script enters a network once at most, at a client that is not among those that it
watches, be it directly or over others. -/
structure Enters (c : Chronicle) (text : String) (above : Nat → Prop) : Prop where
  fresh : ∀ d ∈ c.deeds, d.event ≠ .action (.startSharing false)
  wanted : ∀ s, (c.wanted s).length ≤ 1
  once : c.deeds.countP (·.event.enters text) ≤ 1
  outside : ∀ d ∈ c.deeds, d.event.enters text = true → ¬ above d.station
  starts : ∀ d ∈ c.deeds, d.event.enters text = true → ∀ a, c.Watches d.station a → above a
  goesOn : ∀ s a, above s → c.Watches s a → above a

/-- The line has been passed on by nobody above the client where it has entered, and by nobody
twice. -/
def Spreads (c : Chronicle) (text : String) (above : Nat → Prop) : Prop :=
  ∀ s, c.timesPassed text s ≤ 1 ∧ (above s → c.timesPassed text s = 0)

variable {above : Nat → Prop}

theorem Watches.mono {new : List Deed} (hdeeds : c'.deeds = c.deeds ++ new) {a : Nat}
    (h : c.Watches s a) : c'.Watches s a := by
  obtain ⟨id, hid, g, line, hhears⟩ := h
  refine ⟨id, (wanted_sublist hdeeds s).subset hid, g, line, hhears.mono fun u e he => ?_⟩
  rw [deedsOf_append hdeeds]
  exact List.mem_append_left _ he

theorem Enters.before {new : List Deed} (hdeeds : c'.deeds = c.deeds ++ new)
    (h : c'.Enters text above) : c.Enters text above := by
  have hmem : ∀ d ∈ c.deeds, d ∈ c'.deeds := by
    intro d hd
    rw [hdeeds]
    exact List.mem_append_left _ hd
  refine ⟨fun d hd => h.fresh d (hmem d hd), fun s => ?_, ?_, fun d hd => h.outside d (hmem d hd),
    fun d hd he a hw => h.starts d (hmem d hd) he a (hw.mono hdeeds),
    fun s a hs hw => h.goesOn s a hs (hw.mono hdeeds)⟩
  · exact (wanted_sublist hdeeds s).length_le.trans (h.wanted s)
  · have honce := h.once
    rw [hdeeds, List.countP_append] at honce
    omega

/-- What a client has got of its user and of whom it watches is the line once, and it is nothing if
the client is above. -/
theorem Enters.total_le (h : c'.Enters text above) (hspreads : c.Spreads text above)
    (hsource : (c'.news s).countP (·.repeats text) = 0 ∨ ∃ a, c'.Watches s a ∧
      (c'.news s).countP (·.repeats text) ≤ c.timesPassed text a) :
    (c'.deedsOf s).countP (·.event.enters text) + (c'.news s).countP (·.repeats text) ≤ 1 ∧
      (above s → (c'.deedsOf s).countP (·.event.enters text) +
        (c'.news s).countP (·.repeats text) = 0) := by
  have hentered : (c'.deedsOf s).countP (·.event.enters text) ≤ 1 :=
    List.filter_sublist.countP_le.trans h.once
  rcases Nat.eq_zero_or_pos ((c'.deedsOf s).countP (·.event.enters text)) with hnone | hsome
  · rw [hnone, Nat.zero_add]
    rcases hsource with hquiet | ⟨a, hwatches, hle⟩
    · rw [hquiet]
      exact ⟨Nat.zero_le _, fun _ => rfl⟩
    · obtain ⟨hone, habove⟩ := hspreads a
      refine ⟨hle.trans hone, fun hs => ?_⟩
      have hzero := habove (h.goesOn s a hs hwatches)
      omega
  · -- The line has entered here, so whom the client watches has never passed it on.
    obtain ⟨d, hd, henters⟩ := List.countP_pos_iff.mp hsome
    obtain ⟨hmem, rfl⟩ := mem_deedsOf.mp hd
    refine ⟨?_, fun hs => absurd hs (h.outside d hmem henters)⟩
    rcases hsource with hquiet | ⟨a, hwatches, hle⟩
    · omega
    · have hzero := (hspreads a).2 (h.starts d hmem henters a hwatches)
      omega

/-- A line spreads from client to client in this way in every run. -/
theorem spreads_run {ids : SessionIds} {seats : List Seat}
    (hroutes : ∀ seat ∈ seats, seat.route ≠ .byHand) (hs : List Happening)
    (h : ((start ids seats).run hs).Enters text above) :
    ((start ids seats).run hs).Spreads text above := by
  induction hs using List.reverseRecOn with
  | nil => exact fun s => ⟨Nat.zero_le _, fun _ => rfl⟩
  | append_singleton hs happening ih =>
    have hrun : (start ids seats).run (hs ++ [happening]) = ((start ids seats).run hs).step happening :=
      run_append ..
    rw [hrun] at h ⊢
    have hbefore : ((start ids seats).run hs).Enters text above := h.before (by rfl)
    have hspreads := ih hbefore
    have hsource := fun s =>
      @exists_source s text ids seats hs hroutes hbefore.fresh (hbefore.wanted s)
    generalize (start ids seats).run hs = c at *
    have hstill : (c.step happening).deeds = c.deeds → (c.step happening).Spreads text above := by
      intro hdeeds s
      have hsame : (c.step happening).deedsOf s = c.deedsOf s := by simp only [deedsOf, hdeeds]
      unfold timesPassed
      rw [hsame]
      exact hspreads s
    cases c.moves_step happening with
    | works n j phase news hj hworks hdeeds => exact hstill hdeeds
    | rests hdeeds => exact hstill hdeeds
    | turns d hclient hevent hdeeds hclients _ hnews =>
      intro s
      by_cases hs : s = d.station
      · have htotal := h.total_le hspreads (s := s) (by
          rw [hnews]
          rcases hsource s with hquiet | ⟨a, hwatches, hle⟩
          · exact Or.inl hquiet
          · exact Or.inr ⟨a, hwatches.mono hdeeds, hle⟩)
        have hle : (c.step happening).timesPassed text s ≤ _ :=
          (c.step happening).count_dispatched_le s (Or.inr rfl)
        refine ⟨hle.trans htotal.1, fun habove => ?_⟩
        exact Nat.le_zero.mp (hle.trans (htotal.2 habove).le)
      · have hsame : (c.step happening).deedsOf s = c.deedsOf s := by
          rw [deedsOf_snoc hdeeds, if_neg hs, List.append_nil]
        unfold timesPassed
        rw [hsame]
        exact hspreads s

end Chronicle

/-! ## The law -/

/-- Any number of clients on one relay share and watch as they like, and whatever happens does so in
any order; but nobody shares an old script, and nobody watches more than one session. Where a line
of script is submitted, or passed on by hand, once in all, and that client does not watch a session
of its own, be it directly or over clients each of which watches the next, no client ever dispatches
the line twice, nor passes it on twice. -/
theorem no_line_comes_back (ids : SessionIds) (seats : List Seat) (hs : List Happening) (text : String)
    (hroutes : ∀ seat ∈ seats, seat.route ≠ .byHand) :
    let c := (Chronicle.start ids seats).run hs
    (∀ d ∈ c.deeds, d.event ≠ .action (.startSharing false)) →
      (∀ s, (c.wanted s).length ≤ 1) → c.deeds.countP (·.event.enters text) ≤ 1 →
      (∀ d ∈ c.deeds, d.event.enters text = true →
        ¬ Relation.TransGen c.Watches d.station d.station) →
      ∀ s, ((c.deedsOf s).flatMap (·.turn.dispatched)).count (.submit text) ≤ 1 ∧
        ((c.deedsOf s).flatMap (·.turn.dispatched)).count (.share (.submit text)) ≤ 1 := by
  intro c hfresh hwanted honce hloop s
  let above : Nat → Prop := fun u => ∃ d ∈ c.deeds, d.event.enters text = true ∧
    Relation.TransGen c.Watches d.station u
  have henters : c.Enters text above := by
    refine ⟨hfresh, hwanted, honce, ?_, ?_, ?_⟩
    · rintro d hd hd' ⟨e, he, he', hover⟩
      obtain ⟨i, hi⟩ := List.mem_iff_getElem?.mp hd
      obtain ⟨j, hj⟩ := List.mem_iff_getElem?.mp he
      obtain rfl := eq_of_countP_le_one honce hi hj hd' he'
      rw [hi, Option.some.injEq] at hj
      exact hloop d hd hd' (hj ▸ hover)
    · exact fun d hd hd' a hwatches => ⟨d, hd, hd', .single hwatches⟩
    · rintro s a ⟨d, hd, hd', hover⟩ hwatches
      exact ⟨d, hd, hd', hover.tail hwatches⟩
  have hspreads : c.Spreads text above := Chronicle.spreads_run hroutes hs henters
  have htotal := henters.total_le hspreads (Chronicle.exists_source hroutes hfresh (hwanted s))
  exact ⟨(c.count_dispatched_le s (Or.inl rfl)).trans htotal.1,
    (c.count_dispatched_le s (Or.inr rfl)).trans htotal.1⟩

/-- The clients of a chain: the second watches the first, and the third the second. -/
def chainSeats : List Seat := List.replicate 3 ⟨.default, .start .empty, .relay⟩

/-- They share and watch, and the first submits a line. -/
def downTheChain : List Happening :=
  [.act 0 (.startSharing true), .work 0, .attend 0, .work 0, .process 0,
    .act 1 (.startSharing true), .work 1, .attend 1, .work 1, .process 1,
    .act 1 (.tryStartWatching ("http://logo.test/?watching=" ++ counted.first)), .work 2, .attend 2,
    .act 2 (.tryStartWatching ("http://logo.test/?watching=" ++ counted.nth 1)), .work 3, .attend 3,
    .process 1, .process 2, .act 0 (.submit "fd 1\n"), .attend 0, .work 2, .process 1, .attend 1,
    .work 3, .process 2]

theorem line_goes_down_the_chain :
    let c := (Chronicle.start counted chainSeats).run downTheChain
    (c.wanted 1 = [counted.first] ∧ c.wanted 2 = [counted.nth 1]) ∧
      ((c.deedsOf 2).flatMap (·.turn.dispatched)).count (.submit "fd 1\n") = 1 ∧
      ∀ s, ((c.deedsOf s).flatMap (·.turn.dispatched)).count (.submit "fd 1\n") ≤ 1 := by
  have hrun : (∀ d ∈ ((Chronicle.start counted chainSeats).run downTheChain).deeds, d.station < 3 ∧
        d.event ≠ .action (.startSharing false) ∧
        (d.event.enters "fd 1\n" = true → d.station = 0)) ∧
      (((Chronicle.start counted chainSeats).run downTheChain).wanted 0 = [] ∧
        ((Chronicle.start counted chainSeats).run downTheChain).wanted 1 = [counted.first] ∧
        ((Chronicle.start counted chainSeats).run downTheChain).wanted 2 = [counted.nth 1]) ∧
      ((Chronicle.start counted chainSeats).run downTheChain).deeds.countP (·.event.enters "fd 1\n") ≤ 1 ∧
      ((((Chronicle.start counted chainSeats).run downTheChain).deedsOf 2).flatMap
        (·.turn.dispatched)).count (.submit "fd 1\n") = 1 := by decide +kernel
  have hlaw := no_line_comes_back counted chainSeats downTheChain "fd 1\n" (by decide)
  dsimp only at hlaw ⊢
  generalize (Chronicle.start counted chainSeats).run downTheChain = c at *
  obtain ⟨hdeeds, ⟨hfirst, hsecond, hthird⟩, honce, hlast⟩ := hrun
  have hwanted : ∀ s, (c.wanted s).length ≤ 1 := by
    intro s
    obtain rfl | rfl | rfl | hs : s = 0 ∨ s = 1 ∨ s = 2 ∨ 3 ≤ s := by omega
    · simp [hfirst]
    · simp [hsecond]
    · simp [hthird]
    · have hnone : c.deedsOf s = [] := by
        refine List.filter_eq_nil_iff.mpr fun d hd => ?_
        have hlt := (hdeeds d hd).1
        simp only [decide_eq_true_eq]
        omega
      simp [Chronicle.wanted, hnone]
  have hloop : ∀ d ∈ c.deeds, d.event.enters "fd 1\n" = true →
      ¬ Relation.TransGen c.Watches d.station d.station := by
    intro d hd henters hloop
    rw [(hdeeds d hd).2.2 henters] at hloop
    obtain ⟨a, ⟨id, hid, -⟩, -⟩ := Relation.TransGen.head'_iff.mp hloop
    simp [hfirst] at hid
  refine ⟨⟨hsecond, hthird⟩, hlast, fun s => ?_⟩
  exact (hlaw (fun d hd => (hdeeds d hd).2.1) hwanted honce hloop s).1

/-- A client that watches the session that it presents gets back the line that it submits, though
it shares and watches only once, and the line is submitted only once. -/
theorem own_line_comes_back :
    let c := (Chronicle.start counted [⟨.default, .start .empty, .relay⟩]).run
      [.act 0 (.startSharing true), .work 0, .attend 0, .work 0, .process 0,
        .act 0 (.tryStartWatching ("http://logo.test/?watching=" ++ counted.first)), .work 1,
        .attend 1, .act 0 (.submit "fd 1\n"), .attend 0, .work 1, .process 0, .process 0]
    (∀ d ∈ c.deeds, d.station = 0 ∧ d.event ≠ .action (.startSharing false)) ∧
      c.deeds.countP (·.event = .action (.startSharing true)) = 1 ∧ c.wanted 0 = [counted.first] ∧
      c.deeds.countP (·.event.enters "fd 1\n") = 1 ∧
      ((c.deedsOf 0).flatMap (·.turn.dispatched)).count (.submit "fd 1\n") = 2 := by
  decide +kernel

end TurtleScript
