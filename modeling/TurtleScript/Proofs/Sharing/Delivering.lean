-- What a presenter writes on the line of its session: the lines of script that
-- rebuild its script, and then every line that it submits, in order. They are
-- kept until there is a line, written at once from then on, and nothing is
-- written any more when the session is over.
import TurtleScript.Proofs.Sharing.Writing

namespace TurtleScript

open SessionIds (counted)

/-- A user passes an action on by hand. -/
def Event.isHandMade : Event → Bool
  | .action (.share _) => true
  | _ => false

/-! ## A session that goes on -/

/-- A client presents a session whose first messages were these. What it was to send and all that it
has submitted since is kept, or there is a line and all that was written on it. -/
def Client.Conveys (c : Client) (g : Nat) (first : List (Message Action)) (record : List Deed) :
    Prop :=
  ∃ p, c.presenting = some p ∧ p.generation = g ∧
    ((p.outlet = .pending (first ++ record.flatMap (·.submissions)) ∧
        ∀ d ∈ record, ∀ id line, d.event ≠ .presenterReady g id line) ∨
      ∃ line, p.outlet = .open line ∧
        record.flatMap (·.written line) = first ++ record.flatMap (·.submissions) ∧
        ∃ d ∈ record, ∃ id, d.event = .presenterReady g id line)

/-- A turn that does not end the session goes on with it. -/
theorem Client.Conveys.snoc {g : Nat} {first : List (Message Action)} {record : List Deed}
    {d : Deed} (h : d.client.Conveys g first record) (hends : d.event.ends .presenter g = false)
    (hshare : ∀ inner, d.event ≠ .action (.share inner))
    (hfresh : ∀ id line, d.event = .presenterReady g id line →
      ∀ e ∈ record, e.written line = [] ∧ ∀ id' line', e.event ≠ .presenterReady g id' line') :
    d.turn.client.Conveys g first (record ++ [d]) := by
  obtain ⟨p, hp, rfl, hcase⟩ := h
  have hsubmissions : (record ++ [d]).flatMap (·.submissions) =
      record.flatMap (·.submissions) ++ d.turn.submissions := by
    rw [List.flatMap_append]
    simp [Deed.submissions]
  have hwritten : ∀ line, (record ++ [d]).flatMap (·.written line) =
      record.flatMap (·.written line) ++ d.turn.written line := by
    intro line
    rw [List.flatMap_append]
    simp [Deed.written]
  have hturn : d.client.Turns d.event d.turn := d.client.turns_process d.event
  rcases hturn.passes hp hends hshare with
    ⟨hpasses, hother⟩ | ⟨id, line, hevent, hnext, hflushed, hnone⟩
  · cases hpasses with
    | @keeps messages ho hnext hquiet =>
      refine ⟨_, hnext, rfl, Or.inl ⟨?_, ?_⟩⟩
      · rcases hcase with ⟨hkept, -⟩ | ⟨line, hopen, -⟩
        · rw [ho, Outlet.pending.injEq] at hkept
          rw [hsubmissions, hkept, List.append_assoc]
        · rw [ho] at hopen
          cases hopen
      · intro e he
        rcases List.mem_append.mp he with he | he
        · rcases hcase with ⟨-, hnever⟩ | ⟨line, hopen, -⟩
          · exact hnever e he
          · rw [ho] at hopen
            cases hopen
        · rw [List.mem_singleton.mp he]
          exact hother
    | @sends line ho hnext hsent =>
      rcases hcase with ⟨hkept, -⟩ | ⟨line', hopen, hall, e, he, id, hready⟩
      · rw [ho] at hkept
        cases hkept
      · rw [ho, Outlet.open.injEq] at hopen
        subst hopen
        refine ⟨p, hnext, rfl, Or.inr ⟨line, ho, ?_, e, List.mem_append_left _ he, id, hready⟩⟩
        calc (record ++ [d]).flatMap (·.written line)
            = record.flatMap (·.written line) ++ d.turn.written line := hwritten line
          _ = first ++ record.flatMap (·.submissions) ++ d.turn.submissions := by rw [hall, hsent]
          _ = first ++ (record ++ [d]).flatMap (·.submissions) := by
            rw [hsubmissions, List.append_assoc]
  · have hbefore := hfresh id line hevent
    refine ⟨_, hnext, rfl, Or.inr ⟨line, rfl, ?_, d, by simp, id, hevent⟩⟩
    rcases hcase with ⟨hkept, -⟩ | ⟨line', -, -, e, he, id', hready⟩
    · have hsilent : record.flatMap (·.written line) = [] :=
        List.flatMap_eq_nil_iff.mpr fun e he => (hbefore e he).1
      calc (record ++ [d]).flatMap (·.written line)
          = d.turn.written line := by rw [hwritten, hsilent, List.nil_append]
        _ = first ++ record.flatMap (·.submissions) := by
          rw [hflushed, hkept]
          rfl
        _ = first ++ (record ++ [d]).flatMap (·.submissions) := by
          rw [hsubmissions, hnone, List.append_nil]
    · exact absurd hready ((hbefore e he).2 id' line')

namespace Chronicle

variable {a c : Chronicle} {s g : Nat}

/-- Everything that is known of a run. -/
structure Known (c : Chronicle) : Prop where
  hopeful : c.Hopeful
  wired : c.Wired
  called : ∃ callers, c.Called callers

theorem known_run (ids : SessionIds) (seats : List Seat) (hs : List Happening) :
    ((start ids seats).run hs).Known :=
  ⟨hopeful_run ids seats hs, wired_run ids seats hs, called_run ids seats hs⟩

theorem Known.step (h : c.Known) (happening : Happening) : (c.step happening).Known := by
  obtain ⟨callers, hcalled⟩ := h.called
  obtain ⟨more, hmore⟩ := hcalled.step happening
  exact ⟨h.hopeful.step happening, h.wired.step happening, _, hmore⟩

/-- From the start of a session on, the client conveys it as long as nothing ends it. -/
theorem conveys_run {client : Client} {first : List (Message Action)} (ha : a.Known)
    (hclient : a.network.client? s = some client) (hfirst : client.Conveys g first [])
    (hs : List Happening) {more : List Deed} (hmore : (a.run hs).deeds = a.deeds ++ more)
    (hgoes : ∀ d ∈ more, d.station = s →
      d.event.isHandMade = false ∧ d.event.ends .presenter g = false) :
    ∃ now, (a.run hs).network.client? s = some now ∧
      now.Conveys g first (more.filter (·.station = s)) := by
  have hall : (a.run hs).Known ∧ ∃ more, (a.run hs).deeds = a.deeds ++ more ∧
      ∃ now, (a.run hs).network.client? s = some now ∧
        ((∀ d ∈ more, d.station = s →
            d.event.isHandMade = false ∧ d.event.ends .presenter g = false) →
          now.Conveys g first (more.filter (·.station = s))) := by
    refine run_induction (P := fun c => c.Known ∧ ∃ more, c.deeds = a.deeds ++ more ∧
      ∃ now, c.network.client? s = some now ∧
        ((∀ d ∈ more, d.station = s →
            d.event.isHandMade = false ∧ d.event.ends .presenter g = false) →
          now.Conveys g first (more.filter (·.station = s))))
      ⟨ha, [], by simp, client, hclient, fun _ => hfirst⟩ ?_ hs
    rintro c happening ⟨hknown, more, hdeeds, now, hnow, hconveys⟩
    have hnext := hknown.step happening
    refine ⟨hnext, ?_⟩
    cases c.moves_step happening with
    | works t j phase news hj hworks hsame hclients =>
      exact ⟨more, hsame.trans hdeeds, now, (hclients s).trans hnow, hconveys⟩
    | rests hsame hclients =>
      exact ⟨more, hsame.trans hdeeds, now, (hclients s).trans hnow, hconveys⟩
    | turns d hd hevent hnew hclients =>
      refine ⟨more ++ [d], by rw [hnew, hdeeds, List.append_assoc], ?_⟩
      by_cases hstation : s = d.station
      · subst hstation
        rw [hnow, Option.some.injEq] at hd
        subst hd
        refine ⟨d.turn.client, by rw [hclients, if_pos rfl], fun hgoes => ?_⟩
        have hrecord : (more ++ [d]).filter (·.station = d.station) =
            more.filter (·.station = d.station) ++ [d] := by simp
        rw [hrecord]
        have hbefore := hconveys fun e he => hgoes e (List.mem_append_left _ he)
        obtain ⟨hmade, hends⟩ := hgoes d (by simp) rfl
        refine hbefore.snoc hends ?_ fun id line hready e he => ?_
        · intro inner hinner
          rw [hinner] at hmade
          cases hmade
        -- The line is new to the client, so nobody can have written on it.
        have hlast : (c.step happening).deedsOf d.station = c.deedsOf d.station ++ [d] := by
          rw [deedsOf_snoc hnew, if_pos rfl]
        have honce := hnext.hopeful.not_twice (by rw [hclients, if_pos rfl]) hlast
          (List.mem_singleton.mpr rfl) (g := g) (by simp [hready, Event.starts])
        have hmono : ∀ u e, e ∈ c.deedsOf u → e ∈ (c.step happening).deedsOf u := by
          intro u e he
          rw [deedsOf_snoc hnew]
          exact List.mem_append_left _ he
        have hmem : e ∈ c.deedsOf d.station := by
          rw [deedsOf_append hdeeds]
          exact List.mem_append_right _ he
        refine ⟨?_, fun id' line' hevent' => ?_⟩
        · by_contra hwritten
          obtain ⟨callers, hcalled⟩ := hnext.called
          obtain ⟨-, -, f, hf, id', hevent'⟩ := hknown.wired.writer hcalled hmono
            (mem_deedsOf.mp hmem).1 hwritten (hlast ▸ List.mem_append_right _ (by simp)) hready
          have hnot := honce f hf
          simp [hevent', Event.starts] at hnot
        · have hnot := honce e hmem
          simp [hevent', Event.starts] at hnot
      · have hrecord : (more ++ [d]).filter (·.station = s) = more.filter (·.station = s) := by
          simp [Ne.symm hstation]
        refine ⟨now, by rw [hclients, if_neg hstation, hnow], fun hgoes => ?_⟩
        rw [hrecord]
        exact hconveys fun e he => hgoes e (List.mem_append_left _ he)
  obtain ⟨-, more', hmore', now, hnow, hconveys⟩ := hall
  rw [hmore] at hmore'
  rw [← List.append_cancel_left hmore'] at hconveys
  exact ⟨now, hnow, hconveys hgoes⟩

end Chronicle

/-- Nobody writes on the line of a session but its client, while that has the session. -/
theorem Chronicle.Known.silent {c : Chronicle} {s g : Nat} (hc : c.Known) {d e : Deed} {id : String}
    {line : Nat} (he : e ∈ c.deedsOf s) (hready : e.event = .presenterReady g id line)
    (hd : d ∈ c.deeds) (hnot : d.station = s → d.client.holds .presenter g = false) :
    d.written line = [] := by
  by_contra hwritten
  obtain ⟨callers, hcalled⟩ := hc.called
  obtain ⟨hstation, hholds, -⟩ :=
    hc.wired.writer hcalled (fun _ _ h => h) hd hwritten he hready
  rw [hnot hstation] at hholds
  cases hholds

/-- A presenter's session was given out and has not its slot any more. -/
def Client.HasLost (c : Client) (g : Nat) : Prop :=
  g ≤ c.generation ∧ c.holds .presenter g = false

theorem Client.HasLost.process {c : Client} {g : Nat} (h : c.HasLost g) (event : Event) :
    (c.process event).client.HasLost g := by
  have hturn := c.turns_process event
  refine ⟨Nat.le_trans h.1 hturn.generation_le, ?_⟩
  rw [← Bool.not_eq_true, hturn.holds_iff]
  rintro (⟨hold, -⟩ | ⟨-, hgen⟩)
  · rw [h.2] at hold
    cases hold
  · have := h.1
    omega

theorem Client.hasLost_of_ends {c : Client} {g : Nat} {event : Event} (hg : g ≤ c.generation)
    (hends : event.ends .presenter g = true) : (c.process event).client.HasLost g := by
  have hturn := c.turns_process event
  refine ⟨Nat.le_trans hg hturn.generation_le, ?_⟩
  rw [← Bool.not_eq_true, hturn.holds_iff]
  rintro (⟨-, hgoes⟩ | ⟨-, hgen⟩)
  · rw [hends] at hgoes
    cases hgoes
  · omega

section Session

variable {a c : Chronicle} {s g : Nat} {client : Client} {first : List (Message Action)}
  {hs : List Happening} {more : List Deed}

/-- Nobody writes on a line before its session hears of it. -/
theorem Chronicle.Known.unwritten (ha : a.Known) (hc : c.Known) (hmore : c.deeds = a.deeds ++ more)
    (hclient : c.network.client? s = some client) {e : Deed} {id : String} {line : Nat}
    (he : e ∈ more.filter (·.station = s)) (hready : e.event = .presenterReady g id line) :
    a.deeds.flatMap (·.written line) = [] := by
  have hsplit := Chronicle.deedsOf_append hmore
  have hmono : ∀ u e, e ∈ a.deedsOf u → e ∈ c.deedsOf u := by
    intro u e he
    rw [hsplit]
    exact List.mem_append_left _ he
  have he' : e ∈ c.deedsOf s := by
    rw [hsplit]
    exact List.mem_append_right _ he
  refine List.flatMap_eq_nil_iff.mpr fun d hd => ?_
  by_contra hwritten
  obtain ⟨callers, hcalled⟩ := hc.called
  obtain ⟨-, -, f, hf, id', hearlier⟩ := ha.wired.writer hcalled hmono hd hwritten he' hready
  have honce := hc.hopeful.not_twice hclient (hsplit s) he (g := g) (by simp [hready, Event.starts])
  have hnot := honce f hf
  simp [hearlier, Event.starts] at hnot

/-- As long as nothing ends the session, what was written on its line is what it has conveyed. -/
theorem Chronicle.Known.written_eq (ha : a.Known) (hrun : (a.run hs).Known)
    (hclient : a.network.client? s = some client) (hfirst : client.Conveys g first [])
    (hmore : (a.run hs).deeds = a.deeds ++ more)
    (hgoes : ∀ d ∈ more, d.station = s →
      d.event.isHandMade = false ∧ d.event.ends .presenter g = false)
    {e : Deed} {id : String} {line : Nat} (he : e ∈ more.filter (·.station = s))
    (hline : e.event = .presenterReady g id line) :
    (a.run hs).deeds.flatMap (·.written line) =
      first ++ (more.filter (·.station = s)).flatMap (·.submissions) := by
  have he' : e ∈ (a.run hs).deedsOf s := by
    rw [Chronicle.deedsOf_append hmore]
    exact List.mem_append_right _ he
  obtain ⟨now, hnow, p, hp, -, hcase⟩ :=
    Chronicle.conveys_run ha hclient hfirst hs hmore hgoes
  rcases hcase with ⟨-, hnever⟩ | ⟨line', -, hall, f, hf, id', hline'⟩
  · exact absurd hline (hnever e he id line)
  · have hf' : f ∈ (a.run hs).deedsOf s := by
      rw [Chronicle.deedsOf_append hmore]
      exact List.mem_append_right _ hf
    obtain rfl := hrun.hopeful.line_inj hnow he' hf' hline hline'
    have hold : a.deeds.flatMap (·.written line) = [] := ha.unwritten hrun hmore hnow he hline
    have hothers : (more.filter (·.station = s)).flatMap (·.written line) =
        more.flatMap (·.written line) := by
      refine flatMap_filter_of_silent fun d hd hstation => ?_
      refine hrun.silent he' hline ?_ fun hs => ?_
      · rw [hmore]
        exact List.mem_append_right _ hd
      · simp [hs] at hstation
    rw [hmore, List.flatMap_append, hold, List.nil_append, ← hothers, hall]

/-- Once something has ended a session, the client never has it again and nothing is written on its
line. -/
theorem Chronicle.Known.ended (hc : (a.run hs).Known) {d : Deed} {rest : List Deed}
    (hclient : a.network.client? s = some client) (hg : g ≤ client.generation)
    (hmore : (a.run hs).deeds = a.deeds ++ (more ++ d :: rest)) (hd : d.station = s)
    (hends : d.event.ends .presenter g = true) :
    (∀ now, (a.run hs).network.client? s = some now → now.holds .presenter g = false) ∧
      ∀ e ∈ (a.run hs).deedsOf s, ∀ id line, e.event = .presenterReady g id line →
        (a.run hs).deeds.flatMap (·.written line) = (a.deeds ++ more).flatMap (·.written line) := by
  obtain ⟨before, now, after, rfl, hbefore, hdeed⟩ := Chronicle.exists_moment hmore
  obtain ⟨hsnoc, hd₁, hd₂⟩ := Chronicle.step_of_deed hdeed
  rw [hd] at hd₁ hd₂
  have hsplit : a.run (before ++ now :: after) = ((a.run before).step now).run after :=
    Chronicle.run_append ..
  have hrest : (((a.run before).step now).run after).deeds =
      ((a.run before).step now).deeds ++ rest := by
    rw [← hsplit, hmore, hsnoc, hbefore]
    simp
  -- The session was given out before, so no later one is given its number.
  obtain ⟨last, hlast, hknows, -⟩ := Chronicle.keeps_run (Q := fun c => g ≤ c.generation)
    (fun c event h => Nat.le_trans h (c.turns_process event).generation_le) hbefore hclient
  rw [hd₁, Option.some.injEq] at hlast
  subst hlast
  have hlost : d.turn.client.HasLost g := Client.hasLost_of_ends (hknows hg).1 hends
  obtain ⟨last, hlast, hstays, -⟩ := Chronicle.keeps_run (Q := fun c => c.HasLost g)
    (fun c event h => h.process event) hrest hd₂
  obtain ⟨hnever, hdeeds⟩ := hstays hlost
  refine ⟨fun now hnow => ?_, fun e he id line hready => ?_⟩
  · rw [hsplit, hlast, Option.some.injEq] at hnow
    exact hnow ▸ hnever.2
  · have hquiet : d.written line = [] :=
      (d.client.turns_process d.event).written_of_ends hends line
    have hsilent : rest.flatMap (·.written line) = [] := by
      refine List.flatMap_eq_nil_iff.mpr fun f hf => ?_
      refine hc.silent he hready ?_ fun hstation => (hdeeds f hf hstation).2
      rw [hmore]
      exact List.mem_append_right _ (List.mem_append_right _ (List.mem_cons_of_mem _ hf))
    calc (a.run (before ++ now :: after)).deeds.flatMap (·.written line)
        = (a.deeds ++ more).flatMap (·.written line) ++
            (d.written line ++ rest.flatMap (·.written line)) := by
          rw [hmore, ← List.append_assoc, List.flatMap_append, List.flatMap_cons]
      _ = (a.deeds ++ more).flatMap (·.written line) := by
          rw [hquiet, hsilent, List.append_nil, List.append_nil]

end Session

/-! ## The law -/

/-- A client starts to share; and then whatever may happen, to it or to others, in whatever order,
but that its user makes messages by hand. The session has its slot until something ends it. All that
is ever written on the line of the session, if the client hears of the line before that, is what
rebuilds the script that it started with and then every line of script that has gone through its
store before that, in order, be it from its user or from a presenter that it watches. If the client
hears of the line too late then nothing is ever written on it. -/
theorem outbox_is_complete_and_ordered (ids : SessionIds) (seats : List Seat) (before later : List Happening)
    (h : Happening) (s : Nat) (client : Client) (fresh : Bool)
    (hstart : ((Chronicle.start ids seats).run before).network.deed? h =
      some ⟨s, client, .action (.startSharing fresh)⟩) :
    let a := ((Chronicle.start ids seats).run before).step h
    let c := a.run later
    let g := client.generation + 1
    let going := (a.since c s).takeWhile fun d => !d.event.ends .presenter g
    (∀ d ∈ a.since c s, d.event.isHandMade = false) →
      (∀ now, c.network.client? s = some now →
        (now.holds .presenter g = true ↔ going = a.since c s)) ∧
      ∀ id line, (∃ d ∈ a.since c s, d.event = .presenterReady g id line) →
        c.deeds.flatMap (·.written line) =
          if ∃ d ∈ going, d.event = .presenterReady g id line then
            (if fresh then [] else Client.rebuilding client.present) ++
              going.flatMap (·.submissions)
          else [] := by
  intro a c g going hhand
  let d₀ : Deed := ⟨s, client, .action (.startSharing fresh)⟩
  have hknown : ∀ hs, (a.run hs).Known := by
    intro hs
    have hwhole : (Chronicle.start ids seats).run (before ++ h :: hs) = a.run hs :=
      Chronicle.run_append ..
    exact hwhole ▸ Chronicle.known_run ids seats _
  have ha : a.Known := hknown []
  obtain ⟨-, -, hnext⟩ := Chronicle.step_of_deed hstart
  have hafter : a.network.client? s = some d₀.turn.client := hnext
  have hturn : client.Turns d₀.event d₀.turn := client.turns_process _
  have hgeneration : g ≤ d₀.turn.client.generation := by
    rw [hturn.generation_eq]
    simp [d₀, Event.opens, g]
  have hfirst : d₀.turn.client.Conveys g
      (if fresh then [] else Client.rebuilding client.present) [] :=
    ⟨_, client.presenting_dispatch_startSharing fresh, rfl, Or.inl ⟨by simp, by simp⟩⟩
  obtain ⟨more, hmore⟩ := a.exists_deeds_run later
  have hsince : a.since c s = more.filter (·.station = s) := Chronicle.since_eq hmore s
  have hmade : ∀ d ∈ more, d.station = s → d.event.isHandMade = false := by
    intro d hd hstation
    exact hhand d (hsince ▸ List.mem_filter.mpr ⟨hd, by simpa using hstation⟩)
  obtain hnone | ⟨d, hfind⟩ := Option.eq_none_or_eq_some
    (more.find? fun d => d.station = s && d.event.ends .presenter g)
  · -- Nothing has ended the session.
    have hgoes : ∀ d ∈ more, d.station = s → d.event.ends .presenter g = false := by
      intro d hd hstation
      simpa [hstation] using List.find?_eq_none.mp hnone d hd
    have hwhole : going = a.since c s := by
      refine List.takeWhile_eq_self_iff.mpr fun d hd => ?_
      obtain ⟨hd, hstation⟩ := List.mem_filter.mp (hsince ▸ hd)
      simp [hgoes d hd (by simpa using hstation)]
    have hboth := fun d hd hstation => And.intro (hmade d hd hstation) (hgoes d hd hstation)
    rw [hwhole, hsince]
    refine ⟨fun now hnow => ⟨fun _ => rfl, fun _ => ?_⟩, fun id line hready => ?_⟩
    · obtain ⟨last, hlast, p, hp, hgen, -⟩ :=
        Chronicle.conveys_run ha hafter hfirst later hmore hboth
      rw [hlast, Option.some.injEq] at hnow
      exact hnow ▸ Client.isPresenting_iff.mpr ⟨p, hp, hgen⟩
    · obtain ⟨e, he, hline⟩ := hready
      rw [if_pos ⟨e, he, hline⟩]
      exact ha.written_eq (hknown later) hafter hfirst hmore hboth he hline
  · -- Something has, and before that nothing had.
    obtain ⟨hd, mine, rest, rfl, hgoes⟩ := List.find?_eq_some_iff_append.mp hfind
    simp only [Bool.and_eq_true, decide_eq_true_eq] at hd
    obtain ⟨hstation, hends⟩ := hd
    have hsplit : (mine ++ d :: rest).filter (·.station = s) =
        mine.filter (·.station = s) ++ d :: rest.filter (·.station = s) := by
      rw [List.filter_append, List.filter_cons_of_pos (by simpa using hstation)]
    have hgoing : going = mine.filter (·.station = s) := by
      have hlive : ∀ e ∈ mine.filter (·.station = s), (!e.event.ends .presenter g) = true := by
        intro e he
        obtain ⟨he, hs⟩ := List.mem_filter.mp he
        simpa [of_decide_eq_true hs] using hgoes e he
      unfold going
      rw [hsince, hsplit, List.takeWhile_append_of_pos hlive,
        List.takeWhile_cons_of_neg (by simp [hends]), List.append_nil]
    obtain ⟨hnever, hsame⟩ := (hknown later).ended hafter hgeneration hmore hstation hends
    rw [hgoing, hsince, hsplit]
    refine ⟨fun now hnow => ⟨fun hholds => ?_, fun heq => ?_⟩, fun id line hready => ?_⟩
    · rw [hnever now hnow] at hholds
      cases hholds
    · simpa using congrArg List.length heq
    · obtain ⟨e, he, hline⟩ := hready
      rw [← hsplit] at he
      have he' : e ∈ c.deedsOf s := by
        rw [Chronicle.deedsOf_append hmore]
        exact List.mem_append_right _ he
      rw [hsame e he' id line hline]
      obtain ⟨first, now, others, hlater, hprefix, hdeed⟩ := Chronicle.exists_moment hmore
      split
      · rename_i hheard
        obtain ⟨f, hf, hfline⟩ := hheard
        rw [← hprefix]
        refine ha.written_eq (hknown first) hafter hfirst hprefix ?_ hf hfline
        intro x hx hs
        exact ⟨hmade x (List.mem_append_left _ hx) hs, by simpa [hs] using hgoes x hx⟩
      · rename_i hunheard
        have hafterwards : e ∈ (d :: rest).filter (·.station = s) := by
          rw [List.filter_append, List.mem_append] at he
          exact he.resolve_left fun h => hunheard ⟨e, h, hline⟩
        have hnow := (Chronicle.keeps_run (Q := fun _ => True) (fun _ _ h => h) hmore hafter)
        obtain ⟨last, hlast, -⟩ := hnow
        rw [← hprefix]
        refine (hknown first).unwritten (hknown later) ?_ hlast hafterwards hline
        rw [hmore, hprefix, List.append_assoc]

/-- A client with a line of script. -/
def scribbled : Chronicle :=
  (Chronicle.start counted [⟨.default, .start .empty, .relay⟩]).run [.act 0 (.submit "fd 1\n")]

/-- It begins to share, goes on before and after it hears of its line, and after it has stopped. -/
def untilStopped : List Happening :=
  [.work 0, .attend 0, .work 0, .act 0 (.submit "rt 2\n"), .process 0, .act 0 (.submit "fd 3\n"),
    .act 0 .stopSharing, .act 0 (.submit "fd 4\n")]

theorem three_lines_are_written :
    ((scribbled.step (.act 0 (.startSharing false))).run untilStopped).deeds.flatMap
        (·.written 0) =
      ["fd 1\n", "rt 2\n", "fd 3\n"].map fun text => .newAction (.submit text) := by
  have hclient : (scribbled.network.client? 0).map (fun client => (client.generation,
      Client.rebuilding client.present)) = some (0, [.newAction (.submit "fd 1\n")]) := by
    decide +kernel
  obtain ⟨client, hsome, hfacts⟩ := Option.map_eq_some_iff.mp hclient
  simp only [Prod.mk.injEq] at hfacts
  obtain ⟨hgeneration, hpresent⟩ := hfacts
  have hdeed : scribbled.network.deed? (.act 0 (.startSharing false)) =
      some ⟨0, client, .action (.startSharing false)⟩ := by
    obtain ⟨station, hstation, rfl⟩ := Option.map_eq_some_iff.mp hsome
    simp [Network.deed?, hstation]
  have hlaw := outbox_is_complete_and_ordered counted [⟨.default, .start .empty, .relay⟩]
    [.act 0 (.submit "fd 1\n")] untilStopped (.act 0 (.startSharing false)) 0 client false hdeed
  simp only [hgeneration] at hlaw
  obtain ⟨-, hall⟩ := hlaw (by decide +kernel)
  have hwritten := hall counted.first 0 (by decide +kernel)
  rw [if_pos (by decide +kernel), hpresent] at hwritten
  refine hwritten.trans ?_
  decide +kernel

end TurtleScript
