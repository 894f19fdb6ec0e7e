-- Whose lines the lines of a relay are. A line belongs to the task that has
-- called on it, for good; a client hears of the line of a session of its own
-- only, and asks for no session that its user does not want to watch.
import TurtleScript.Proofs.Sharing.Moving

namespace TurtleScript

/-! ## The number of lines -/

namespace Relay

variable {r r' : Relay} {n line : Nat}

theorem length_near (r : Relay) (line : Nat) (d : Doing) :
    (r.near line d).lines.length = r.lines.length := length_onLink ..

theorem length_carry (r : Relay) (e : Effect) : (r.carry e).lines.length = r.lines.length := by
  cases e with
  | send line message => exact length_near ..
  | hangUp line => exact length_near ..
  | _ => rfl

theorem length_foldl_carry (effects : List Effect) (r : Relay) :
    (effects.foldl carry r).lines.length = r.lines.length := by
  induction effects generalizing r with
  | nil => rfl
  | cons e effects ih => rw [List.foldl_cons, ih, length_carry]

theorem length_foldl_near (line : Nat) (ds : List Doing) (r : Relay) :
    (ds.foldl (fun r d => r.near line d) r).lines.length = r.lines.length := by
  induction ds generalizing r with
  | nil => rfl
  | cons d ds ih => rw [List.foldl_cons, ih, length_near]

theorem length_publish (r : Relay) (id action : String) :
    (r.publish id action).lines.length = r.lines.length := by
  unfold publish
  split
  · rfl
  · exact length_foldl_onLink ..

theorem length_closeSession (r : Relay) (id : String) :
    (r.closeSession id).lines.length = r.lines.length := by
  unfold closeSession
  split
  · rfl
  · exact length_foldl_onLink ..

theorem length_attend (h : r.attend n = some r') : r'.lines.length = r.lines.length := by
  obtain ⟨⟨link, attendant⟩, hline⟩ := exists_line_of_attend h
  cases attends_of_attend hline h with
  | opens _ _ _ _ htouches => exact htouches.length
  | joins _ _ _ _ _ _ _ htouches => exact htouches.length
  | passes id text action rest hwaiting haction hr =>
    rw [hr, length_publish, length_onLink]
  | ends id hwaiting hr =>
    rw [hr, (touches_leave _ n).length, length_closeSession]
  | skips attendant text rest hwaiting hkind hr => rw [hr, length_onLink]
  | refuses _ htouches => exact htouches.length
  | leaves _ htouches => exact htouches.length

end Relay

/-- Some work of a task makes one more line if the task calls, and none otherwise. -/
theorem Task.Works.length_lines {j : Task} {r r' : Relay} {route? : Option Route} {phase : Phase}
    {news : List Event} (h : j.Works r route? r' phase news) :
    j.phase = .calling ∧ phase = j.waits r.lines.length ∧ news = j.calledNews ∧
        r'.lines.length = r.lines.length + 1 ∨ r'.lines.length = r.lines.length := by
  cases h with
  | calls h ha =>
    refine Or.inl ⟨h, rfl, rfl, ?_⟩
    rw [Relay.length_near]
    simp [Relay.connect]
  | quits h hnews line ds hds => exact Or.inr (Relay.length_foldl_near ..)
  | assigned => exact Or.inr (Relay.length_near ..)
  | hears => exact Or.inr (Relay.length_near ..)
  | passesOver => exact Or.inr (Relay.length_near ..)

/-! ## Callers -/

/-- Who has called on a line: whose task it was, of which session, and what it is for. -/
structure Caller where
  station : Nat
  generation : Nat
  purpose : Purpose
  deriving DecidableEq, Repr

/-- The caller that a task is, or will be. -/
def Task.caller (j : Task) : Caller := ⟨j.station, j.generation, j.purpose⟩

def Task.isOn (j : Task) (line : Nat) : Prop :=
  j.phase = .awaiting line ∨ j.phase = .listening line

/-- A caller of this station that watches a session of such an id. -/
def Caller.asksFor (s : Nat) (p : String → Bool) (caller : Caller) : Bool :=
  match caller.purpose with
  | .present => false
  | .watch id => caller.station = s && p id

/-- A task of this station that is about to ask for a session of such an id. -/
def Task.willAskFor (s : Nat) (p : String → Bool) (j : Task) : Bool :=
  j.phase = .calling && j.caller.asksFor s p

/-- The id of the session that a user wants to watch. -/
def Event.wanted? : Event → Option String
  | .action (.tryStartWatching url) => watchingId? url
  | _ => none

namespace Client

variable {c : Client} {t : Turn}

theorem countP_jobs_of_none {effects : List Effect} {s : Nat}
    (h : effects.filterMap (Effect.job? s) = []) (u : Nat) (p : String → Bool) (n : Nat) :
    (effects.filterMap (Effect.job? s)).countP (·.willAskFor u p) ≤ n := by
  rw [h]
  exact Nat.zero_le n

theorem Acts.countP_jobs {action : Action} (h : c.Acts action t) (s u : Nat) (p : String → Bool) :
    (t.jobs s).countP (·.willAskFor u p) ≤
      if u = s then (Event.action action).wanted?.toList.countP p else 0 := by
  cases h with
  | starts fresh =>
    unfold Turn.jobs turn
    rw [List.filterMap_append, jobs_closings]
    simp [Effect.job?, Task.willAskFor, Caller.asksFor, Task.caller]
  | @follows url id h =>
    have hwanted : (Event.action (.tryStartWatching url)).wanted? = some id := h
    unfold Turn.jobs turn
    rw [List.filterMap_append, jobs_cancels, hwanted]
    by_cases hu : u = s
    · simp [Effect.job?, Task.willAskFor, Caller.asksFor, Task.caller, hu]
    · simp [Effect.job?, Task.willAskFor, Caller.asksFor, Task.caller, Ne.symm hu]
  | stops hp => exact countP_jobs_of_none (jobs_closing _ s) u p _
  | _ => exact countP_jobs_of_none rfl u p _

/-- A turn calls for as many sessions to watch as its user wants. -/
theorem Turns.countP_jobs {event : Event} (h : c.Turns event t) (s u : Nat) (p : String → Bool) :
    (t.jobs s).countP (·.willAskFor u p) ≤ if u = s then event.wanted?.toList.countP p else 0 := by
  cases h with
  | acts h => exact h.countP_jobs s u p
  | @repeats action t generation hw hr h =>
    have hwanted : (Event.action action).wanted? = none := by
      cases action with
      | tryStartWatching url => cases hr
      | _ => rfl
    have hle := h.countP_jobs s u p
    rw [hwanted] at hle
    exact hle
  | @establishes q id line hp =>
    have hquiet : (q.outlet.kept.map (Effect.send line)).filterMap (Effect.job? s) = [] := by
      rw [List.filterMap_map]
      simp [Effect.job?]
    exact countP_jobs_of_none hquiet u p _
  | loses hp => exact countP_jobs_of_none (jobs_closing _ s) u p _
  | _ => exact countP_jobs_of_none rfl u p _

end Client

namespace Chronicle

variable {c c' : Chronicle} {callers : List Caller} {s : Nat}

/-- The ids of the sessions that the user of a station wanted to watch. -/
def wanted (c : Chronicle) (s : Nat) : List String := (c.deedsOf s).filterMap (·.event.wanted?)

/-- The callers of all lines in order. A task is on a line of its own, only a presenter waits for an
id there, clients are told of their own lines only, and they watch what their users want, once for
each time. -/
structure Called (c : Chronicle) (callers : List Caller) : Prop where
  length : callers.length = c.network.relay.lines.length
  jobs : ∀ j ∈ c.network.jobs, ∀ line, j.isOn line → callers[line]? = some j.caller
  awaits : ∀ j ∈ c.network.jobs, ∀ line, j.phase = .awaiting line → j.purpose = .present
  ready : ∀ s g id line, .presenterReady g id line ∈ c.news s →
    callers[line]? = some ⟨s, g, .present⟩
  booked : ∀ s p, callers.countP (·.asksFor s p) + c.network.jobs.countP (·.willAskFor s p) ≤
    (c.wanted s).countP p

theorem called_start (ids : SessionIds) (seats : List Seat) : (start ids seats).Called [] where
  length := rfl
  jobs := by simp [start, Network.jobs]
  awaits := by simp [start, Network.jobs]
  ready := by simp [news_start]
  booked := by simp [start, Network.jobs]

/-- News that are there now were there before, or a task has just told them. -/
theorem mem_news_cases {news news' more told : List Event} {event : Event} {p : Prop} [Decidable p]
    (hmore : news' = news ++ more) (hsub : more.Sublist (if p then told else []))
    (h : event ∈ news') : event ∈ news ∨ p ∧ event ∈ told := by
  rw [hmore, List.mem_append] at h
  rcases h with h | h
  · exact Or.inl h
  · have hmem := hsub.subset h
    split at hmem
    · exact Or.inr ⟨‹p›, hmem⟩
    · simp at hmem

theorem Called.works (h : c.Called callers) {t : Nat} {j : Task} {route? : Option Route}
    {phase : Phase} {news : List Event} (hj : c.network.jobs[t]? = some j)
    (hdeeds : c'.deeds = c.deeds)
    (hworks : j.Works c.network.relay route? c'.network.relay phase news)
    (hnews : ∀ u, ∃ more, c'.news u = c.news u ++ more ∧
      more.Sublist (if u = j.station then news else []))
    (hjobs : c'.network.jobs = c.network.jobs.set t { j with phase }) :
    ∃ more, c'.Called (callers ++ more) := by
  have hmem : j ∈ c.network.jobs := List.mem_of_getElem? hj
  have hlength := h.length
  -- A line that has a caller keeps it.
  have hkeeps : ∀ more (line : Nat) caller, callers[line]? = some caller →
      (callers ++ more)[line]? = some caller := by
    intro more line caller hline
    obtain ⟨hlt, -⟩ := List.getElem?_eq_some_iff.mp hline
    rw [List.getElem?_append_left hlt, hline]
  -- It is enough that the task itself is on a line of its own and tells of no other.
  have hsuffices : ∀ more, (callers ++ more).length = c'.network.relay.lines.length →
      (∀ line, ({ j with phase } : Task).isOn line → (callers ++ more)[line]? = some j.caller) →
      (∀ line, phase = .awaiting line → j.purpose = .present) →
      (∀ g id line, .presenterReady g id line ∈ news →
        (callers ++ more)[line]? = some ⟨j.station, g, .present⟩) →
      (∀ s p, more.countP (·.asksFor s p) +
          (if ({ j with phase } : Task).willAskFor s p = true then 1 else 0) ≤
        if j.willAskFor s p = true then 1 else 0) → c'.Called (callers ++ more) := by
    intro more hlen hon hawaits hready hasks
    refine ⟨hlen, ?_, ?_, ?_, ?_⟩
    · intro k hk line hline
      rw [hjobs] at hk
      rcases List.mem_or_eq_of_mem_set hk with hk | rfl
      · exact hkeeps more line _ (h.jobs k hk line hline)
      · exact hon line hline
    · intro k hk line hline
      rw [hjobs] at hk
      rcases List.mem_or_eq_of_mem_set hk with hk | rfl
      · exact h.awaits k hk line hline
      · exact hawaits line hline
    · intro s g id line hevent
      obtain ⟨told, htold, hsub⟩ := hnews s
      rcases mem_news_cases htold hsub hevent with hold | ⟨rfl, hnew⟩
      · exact hkeeps more line _ (h.ready s g id line hold)
      · exact hready g id line hnew
    · intro s p
      have hbefore := h.booked s p
      have hone := hasks s p
      have hsame : c'.wanted s = c.wanted s := by simp only [wanted, deedsOf, hdeeds]
      obtain ⟨hlt, hget⟩ := List.getElem?_eq_some_iff.mp hj
      have hset := List.countP_set (p := (·.willAskFor s p)) (a := { j with phase }) hlt
      have hpos : (if c.network.jobs[t].willAskFor s p = true then 1 else 0) ≤
          c.network.jobs.countP (·.willAskFor s p) := by
        split
        · exact List.countP_pos_iff.mpr ⟨_, List.getElem_mem hlt, ‹_›⟩
        · exact Nat.zero_le _
      rw [hjobs, hset, hsame, List.countP_append]
      rw [hget] at hpos ⊢
      omega
  generalize c'.network.relay = r' at hworks hsuffices
  cases hworks with
  | calls hphase ha =>
    refine ⟨[j.caller], hsuffices _ ?_ ?_ ?_ ?_ ?_⟩
    · rw [Relay.length_near]
      simp [Relay.connect, hlength]
    · intro line hline
      have hhere : line = c.network.relay.lines.length := by
        unfold Task.isOn Task.waits at hline
        cases hpurpose : j.purpose <;> simp_all
      rw [hhere, ← hlength]
      simp
    · intro line hline
      unfold Task.waits at hline
      cases hpurpose : j.purpose <;> simp_all
    · intro g id line hevent
      unfold Task.calledNews at hevent
      cases hpurpose : j.purpose <;> simp_all
    · intro s p
      have hcaller : ({ j with phase := j.waits c.network.relay.lines.length } :
          Task).willAskFor s p = false := by
        unfold Task.willAskFor Task.waits
        cases j.purpose <;> rfl
      have hasks : j.willAskFor s p = j.caller.asksFor s p := by
        unfold Task.willAskFor
        simp [hphase]
      simp [hcaller, hasks, List.countP_cons]
  | quits hphase hkind line ds hds =>
    refine ⟨[], hsuffices _ ?_ (by simp [Task.isOn]) (by simp) ?_ ?_⟩
    · rw [Relay.length_foldl_near, List.append_nil, hlength]
    · intro g id line hevent
      rcases hkind with rfl | rfl <;> simp at hevent
    · simp [Task.willAskFor]
  | @assigned line link text id rest hphase hlink hwaiting hid =>
    have hcaller := h.jobs j hmem line (Or.inl hphase)
    have hpurpose := h.awaits j hmem line hphase
    refine ⟨[], hsuffices _ ?_ ?_ (by simp) ?_ (by simp [Task.willAskFor])⟩
    · rw [Relay.length_near, List.append_nil, hlength]
    · intro other hother
      simp only [Task.isOn, reduceCtorEq, Phase.listening.injEq, false_or] at hother
      subst hother
      rw [List.append_nil, hcaller]
    · intro g i other hevent
      simp only [List.mem_singleton, Event.presenterReady.injEq] at hevent
      obtain ⟨rfl, -, rfl⟩ := hevent
      rw [List.append_nil, hcaller, Task.caller, hpurpose]
  | @hears line link text id rest action hphase hpurpose hlink hwaiting haction =>
    refine ⟨[], hsuffices _ ?_ ?_ (by simp) (by simp) (by simp [Task.willAskFor])⟩
    · rw [Relay.length_near, List.append_nil, hlength]
    · intro other hother
      rw [List.append_nil]
      exact h.jobs j hmem other (by simpa [Task.isOn, hphase] using hother)
  | @passesOver line hphase hpurpose =>
    refine ⟨[], hsuffices _ ?_ ?_ (by simp) (by simp) (by simp [Task.willAskFor])⟩
    · rw [Relay.length_near, List.append_nil, hlength]
    · intro other hother
      rw [List.append_nil]
      exact h.jobs j hmem other (by simpa [Task.isOn, hphase] using hother)

theorem Called.step (h : c.Called callers) (happening : Happening) :
    ∃ more, (c.step happening).Called (callers ++ more) := by
  cases c.moves_step happening with
  | works t j phase news hj hworks hdeeds hclients hroutes hnews hjobs =>
    exact h.works hj hdeeds hworks hnews hjobs
  | rests hdeeds hclients hroutes hnews hjobs hrelay =>
    refine ⟨[], ?_⟩
    rw [List.append_nil]
    refine ⟨?_, by rw [hjobs]; exact h.jobs, by rw [hjobs]; exact h.awaits, ?_, ?_⟩
    · rcases hrelay with hrelay | ⟨line, hrelay⟩ | ⟨line, d, -, hrelay⟩
      · rw [hrelay, h.length]
      · rw [Relay.length_attend hrelay, h.length]
      · rw [hrelay, Relay.length_onLink, h.length]
    · intro s g id line hevent
      exact h.ready s g id line (hnews s ▸ hevent)
    · intro s p
      have hsame : (c.step happening).wanted s = c.wanted s := by
        simp only [wanted, deedsOf, hdeeds]
      rw [hjobs, hsame]
      exact h.booked s p
  | turns d hclient hevent hdeeds hclients hroutes hnews hjobs hrelay =>
    have hnew : ∀ j ∈ d.turn.jobs d.station, j.phase = .calling := by
      intro j hj
      rcases (d.client.turns_process d.event).jobs_cases d.station with ⟨hnone, -⟩ | ⟨p, hone, -⟩
      · unfold Deed.turn at hj
        rw [hnone] at hj
        cases hj
      · unfold Deed.turn at hj
        rw [hone, List.mem_singleton] at hj
        rw [hj]
    refine ⟨[], ?_⟩
    rw [List.append_nil]
    refine ⟨?_, ?_, ?_, ?_, ?_⟩
    · rw [hrelay, Relay.length_foldl_carry, h.length]
    · intro j hj line hline
      rw [hjobs, List.mem_append] at hj
      rcases hj with hj | hj
      · exact h.jobs j hj line hline
      · rw [Task.isOn, hnew j hj] at hline
        simp at hline
    · intro j hj line hline
      rw [hjobs, List.mem_append] at hj
      rcases hj with hj | hj
      · exact h.awaits j hj line hline
      · rw [hnew j hj] at hline
        cases hline
    · intro s g id line hevent
      exact h.ready s g id line (hnews s ▸ hevent)
    · intro s p
      have hbefore := h.booked s p
      have hturn := (d.client.turns_process d.event).countP_jobs d.station s p
      have hwanted : ((c.step happening).wanted s).countP p =
          (c.wanted s).countP p +
            if s = d.station then d.event.wanted?.toList.countP p else 0 := by
        unfold wanted
        rw [deedsOf_snoc hdeeds, List.filterMap_append, List.countP_append]
        split
        · cases hevent : d.event.wanted? <;> simp [hevent]
        · rfl
      rw [hjobs, List.countP_append, hwanted]
      unfold Deed.turn
      omega

theorem called_run (ids : SessionIds) (seats : List Seat) (hs : List Happening) :
    ∃ callers, ((start ids seats).run hs).Called callers := by
  refine run_induction (P := fun c => ∃ callers, c.Called callers) ⟨[], called_start ids seats⟩ ?_ hs
  rintro c happening ⟨callers, h⟩
  obtain ⟨more, hmore⟩ := h.step happening
  exact ⟨callers ++ more, hmore⟩

end Chronicle

end TurtleScript
