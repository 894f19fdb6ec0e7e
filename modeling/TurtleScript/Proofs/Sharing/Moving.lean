-- One happening in a network is a turn of a client, some work of a task, or it
-- is no concern of any session; so what every happening keeps is shown by one
-- case for each of these, and what goes on with a client in a whole run by one
-- case for its turns.
import Mathlib.Data.List.Basic
import TurtleScript.Proofs.Sharing.Chronicle

namespace TurtleScript

namespace Network

variable {n : Network} {s t u line : Nat} {task : Task} {link : Link}

/-! ## Work in a network -/

/-- A task has done something: how far it has come by that, and what it has told its client. -/
structure Worked (n m : Network) (t : Nat) (j : Task) (phase : Phase) (news : List Event) : Prop where
  works : j.Works n.relay (n.route? j.station) m.relay phase news
  jobs : m.jobs = n.jobs.set t { j with phase }
  clients : ∀ u, m.client? u = n.client? u
  routes : ∀ u, m.route? u = n.route? u
  inbox : ∀ u, ∃ more, m.inbox u = n.inbox u ++ more ∧
    more.Sublist (if u = j.station then news else [])

theorem jobs_advance (h : n.tasks[t]? = some task) (phase : Phase) :
    (n.advance t phase).jobs = n.jobs.set t { task.job with phase } := by
  unfold advance jobs
  rw [List.modify_eq_set_getElem?, h]
  exact List.map_set

theorem getElem?_jobs (h : n.tasks[t]? = some task) : n.jobs[t]? = some task.job := by
  unfold jobs
  rw [List.getElem?_map, h]
  rfl

theorem jobs_stay {phase : Phase} (h : n.tasks[t]? = some task) (hphase : task.phase = phase) :
    n.jobs = n.jobs.set t { task.job with phase } := by
  subst hphase
  obtain ⟨hlt, hget⟩ := List.getElem?_eq_some_iff.mp (getElem?_jobs h)
  calc n.jobs = n.jobs.set t n.jobs[t] := (List.set_getElem_self hlt).symm
    _ = n.jobs.set t task.job := by rw [hget]

theorem inbox_report_nil (n : Network) (u : Nat) (j : Task) (news : List Event) :
    ∃ more, n.inbox u = n.inbox u ++ more ∧ more.Sublist (if u = j.station then news else []) :=
  ⟨[], (List.append_nil _).symm, List.nil_sublist _⟩

/-- A caller takes the message that it receives. -/
theorem near_take_eq {r : Relay} {link rest : Link} {text : String} (hlink : r.link? line = some link)
    (hreceive : link.receive .near = .message text rest) :
    r.onLink line (fun _ => rest) = r.near line .take := by
  have hnear : link.near .take = rest := by simp [Link.near, hreceive]
  unfold Relay.near Relay.onLink
  unfold Relay.link? at hlink
  obtain ⟨l, hl, rfl⟩ := Option.map_eq_some_iff.mp hlink
  rw [List.modify_eq_set_getElem?, List.modify_eq_set_getElem?, hl]
  simp [hnear]

theorem worked_call (h : n.tasks[t]? = some task) (hphase : task.phase = .calling)
    {attendant : Attendant}
    (ha : (n.route? task.station).bind (Route.attendant? task.station) = some attendant) :
    n.Worked (n.call t task attendant) t task.job (task.job.waits n.relay.lines.length)
      task.job.calledNews := by
  have hworks := Task.Works.calls (r := n.relay) (j := task.job) hphase ha
  obtain ⟨station, generation, purpose, phase, cancelled⟩ := task
  cases purpose with
  | present =>
    refine ⟨hworks, jobs_advance h _, fun u => rfl, fun u => rfl, fun u => ?_⟩
    exact inbox_report_nil n u _ _
  | watch id =>
    refine ⟨hworks, jobs_advance h _, fun u => client?_report _ _ u _,
      fun u => route?_report _ _ u _, fun u => inbox_report _ _ u _⟩

/-- A task that goes leaves its line or takes no more from it. -/
theorem worked_giveUp (h : n.tasks[t]? = some task) (hphase : task.phase ≠ .finished)
    {m : Network} {news : List Event} (before : List Doing) (line : Nat)
    (hbefore : ∀ d ∈ before, ∀ text, d ≠ .say text)
    (hline : task.phase = .calling ∨ task.phase = .awaiting line ∨ task.phase = .listening line)
    (hnews : news = [] ∨ news = [.sessionClosed task.role task.generation])
    (hrelay : m.relay = before.foldl (fun r d => r.near line d) n.relay)
    (htasks : m.tasks = n.tasks) (hclients : ∀ u, m.client? u = n.client? u)
    (hroutes : ∀ u, m.route? u = n.route? u)
    (hinbox : ∀ u, ∃ more, m.inbox u = n.inbox u ++ more ∧
      more.Sublist (if u = task.station then news else [])) :
    n.Worked (m.giveUp t task) t task.job .finished news := by
  have hworks : ∀ after : List Doing, (∀ d ∈ after, ∀ text, d ≠ .say text) →
      task.job.Works n.relay (n.route? task.station)
        (after.foldl (fun r d => r.near line d) m.relay) .finished news := by
    intro after hafter
    rw [hrelay, ← List.foldl_append]
    refine .quits (j := task.job) hphase hnews line _ fun d hd => ?_
    rcases List.mem_append.mp hd with hd | hd
    · exact hbefore d hd
    · exact hafter d hd
  have hm : m.tasks[t]? = some task := htasks ▸ h
  have hjobs : ∀ r : Relay, (Network.advance { m with relay := r } t .finished).jobs =
      n.jobs.set t { task.job with phase := .finished } := by
    intro r
    have hset := jobs_advance (n := { m with relay := r }) hm .finished
    rw [hset]
    simp [jobs, htasks]
  obtain ⟨station, generation, purpose, phase, cancelled⟩ := task
  cases phase with
  | finished => exact absurd rfl hphase
  | calling => exact ⟨hworks [] (by simp), hjobs _, hclients, hroutes, hinbox⟩
  | awaiting l =>
    simp only [reduceCtorEq, Phase.awaiting.injEq, false_or, or_false] at hline
    subst hline
    exact ⟨hworks [.leave] (by simp), hjobs _, hclients, hroutes, hinbox⟩
  | listening l =>
    simp only [reduceCtorEq, Phase.listening.injEq, false_or] at hline
    subst hline
    cases purpose with
    | present => exact ⟨hworks [.abandon] (by simp), hjobs _, hclients, hroutes, hinbox⟩
    | watch id => exact ⟨hworks [.leave] (by simp), hjobs _, hclients, hroutes, hinbox⟩

theorem worked_place (h : n.tasks[t]? = some task) (hphase : task.phase = .calling) :
    ∃ phase news, n.Worked (n.place t task) t task.job phase news := by
  have hne : task.phase ≠ .finished := by simp [hphase]
  have hgiveUp : ∀ m : Network, m.giveUp t task = m.advance t .finished := by
    intro m
    unfold giveUp
    simp [hphase]
  unfold place
  cases hstation : n.stations[task.station]? with
  | none =>
    have hworked : n.Worked (n.giveUp t task) t task.job .finished [] :=
      worked_giveUp h hne [] 0 (by simp) (Or.inl hphase) (Or.inl rfl) rfl rfl (fun u => rfl)
        (fun u => rfl) fun u => inbox_report_nil n u _ _
    rw [hgiveUp] at hworked
    exact ⟨_, _, hworked⟩
  | some station =>
    have hroute : n.route? task.station = some station.route := by simp [route?, hstation]
    cases hkind : station.route with
    | relay =>
      have ha : (n.route? task.station).bind (Route.attendant? task.station) = some .greeting := by
        simp [hroute, hkind, Route.attendant?]
      simp only [hkind]
      exact ⟨_, _, worked_call h hphase ha⟩
    | byHand =>
      have ha : (n.route? task.station).bind (Route.attendant? task.station) =
          some (.outsider task.station) := by simp [hroute, hkind, Route.attendant?]
      simp only [hkind]
      exact ⟨_, _, worked_call h hphase ha⟩
    | nowhere =>
      simp only [hkind]
      have hworked := worked_giveUp (m := n.reportClosed task) h hne [] 0 (by simp)
        (Or.inl hphase) (Or.inr rfl) rfl rfl (fun u => client?_report _ _ u _)
        (fun u => route?_report _ _ u _) fun u => inbox_report _ _ u _
      rw [hgiveUp] at hworked
      exact ⟨_, _, hworked⟩

theorem worked_listen {m : Network} (h : n.tasks[t]? = some task)
    (hphase : task.phase = .awaiting line ∨ task.phase = .listening line)
    (hlisten : n.listen t task line = some m) :
    ∃ phase news, n.Worked m t task.job phase news := by
  have hne : task.phase ≠ .finished := by
    rcases hphase with hphase | hphase <;> simp [hphase]
  unfold listen at hlisten
  cases hlink : n.relay.link? line with
  | none => simp [hlink] at hlisten
  | some link =>
    simp only [hlink] at hlisten
    cases hreceive : link.receive .near with
    | nothing => simp [hreceive] at hlisten
    | ended =>
      simp only [hreceive, Option.some.injEq] at hlisten
      subst hlisten
      exact ⟨_, _, worked_giveUp (m := n.reportClosed task) h hne [] line (by simp) (Or.inr hphase)
        (Or.inr rfl) rfl rfl (fun u => client?_report _ _ u _) (fun u => route?_report _ _ u _)
        fun u => inbox_report _ _ u _⟩
    | message text rest =>
      simp only [hreceive, Option.some.injEq] at hlisten
      subst hlisten
      have htake := near_take_eq hlink hreceive
      obtain ⟨waiting, hwaiting⟩ : ∃ waiting, link.down.waiting = text :: waiting := by
        cases hdown : link.down.waiting with
        | nil =>
          rw [Link.receive_near_nil hdown] at hreceive
          split at hreceive <;> cases hreceive
        | cons first waiting =>
          rw [Link.receive_near_cons hdown, Reception.message.injEq] at hreceive
          exact ⟨waiting, by rw [hreceive.1]⟩
      have hquits : ∃ phase news, n.Worked
          (((n.onLink line fun _ => rest).reportClosed task).giveUp t task) t task.job phase news :=
        ⟨_, _, worked_giveUp h hne [.take] line (by simp) (Or.inr hphase) (Or.inr rfl) htake rfl
          (fun u => client?_report _ _ u _) (fun u => route?_report _ _ u _)
          fun u => inbox_report _ _ u _⟩
      rcases hphase with hphase | hphase
      · cases hid : assignedId? text with
        | none => simpa only [hear, hphase, hid] using hquits
        | some id =>
          simp only [hear, hphase, hid]
          have hworks : task.job.Works n.relay (n.route? task.station) (n.relay.near line .take)
              (.listening line) [.presenterReady task.generation id line] :=
            .assigned hphase hlink hwaiting hid
          rw [← htake] at hworks
          exact ⟨_, _, hworks, jobs_advance h _, fun u => client?_report _ _ u _,
            fun u => route?_report _ _ u _, fun u => inbox_report _ _ u _⟩
      · cases hpurpose : task.purpose with
        | present =>
          simp only [hear, hphase, hpurpose]
          have hworks : task.job.Works n.relay (n.route? task.station) (n.relay.near line .take)
              (.listening line) [] := .passesOver hphase hpurpose
          rw [← htake] at hworks
          exact ⟨_, _, hworks, jobs_stay h hphase, fun u => rfl, fun u => rfl,
            fun u => inbox_report_nil n u _ _⟩
        | watch id =>
          cases haction : Action.ofText? text with
          | none => simpa only [hear, hphase, hpurpose, haction] using hquits
          | some action =>
            simp only [hear, hphase, hpurpose, haction]
            have hworks : task.job.Works n.relay (n.route? task.station) (n.relay.near line .take)
                (.listening line) [.remote task.generation action] :=
              .hears hphase hpurpose hlink hwaiting haction
            rw [← htake] at hworks
            exact ⟨_, _, hworks, jobs_stay h hphase, fun u => client?_report _ _ u _,
              fun u => route?_report _ _ u _, fun u => inbox_report _ _ u _⟩

/-- Whatever a task does next, it is one of these things. -/
theorem worked_lag {m : Network} (h : n.lag t = some m) :
    ∃ j phase news, n.jobs[t]? = some j ∧ n.Worked m t j phase news := by
  unfold lag at h
  cases htask : n.tasks[t]? with
  | none => simp [htask] at h
  | some task =>
    refine ⟨task.job, ?_⟩
    simp only [htask] at h
    have hworked : ∃ phase news, n.Worked m t task.job phase news := by
      cases hphase : task.phase with
      | finished => simp [hphase] at h
      | calling =>
        simp only [hphase, Option.some.injEq] at h
        exact h ▸ worked_place htask hphase
      | awaiting line =>
        simp only [hphase] at h
        exact worked_listen htask (Or.inl hphase) h
      | listening line =>
        simp only [hphase] at h
        exact worked_listen htask (Or.inr hphase) h
    obtain ⟨phase, news, hworked⟩ := hworked
    exact ⟨phase, news, getElem?_jobs htask, hworked⟩

theorem worked_work {m : Network} (h : n.work t = some m) :
    ∃ j phase news, n.jobs[t]? = some j ∧ n.Worked m t j phase news := by
  rcases work_cases h with h | ⟨task, htask, -, hphase, rfl⟩
  · exact worked_lag h
  · have hline : ∃ line, task.phase = .calling ∨ task.phase = .awaiting line ∨
        task.phase = .listening line := by
      cases hp : task.phase with
      | finished => exact absurd hp hphase
      | _ => simp
    obtain ⟨line, hline⟩ := hline
    exact ⟨task.job, _, [], getElem?_jobs htask, worked_giveUp htask hphase [] line (by simp) hline
      (Or.inl rfl) rfl rfl (fun u => rfl) (fun u => rfl) fun u => inbox_report_nil n u _ _⟩

end Network

/-! ## All that can happen -/

/-- An event comes from a task, not from a user. -/
def Event.isNews : Event → Bool
  | .action _ => false
  | _ => true

namespace Chronicle

variable {c c' : Chronicle} {s u : Nat} {h : Happening}

/-- All that the tasks of a station have told its client so far, be it that the client has dealt
with it or that it still waits. -/
def news (c : Chronicle) (s : Nat) : List Event :=
  ((c.deedsOf s).map (·.event) ++ c.network.inbox s).filter Event.isNews

/-- What happens is a turn of a client, some work of a task, or something that concerns neither. -/
inductive Moves (c c' : Chronicle) : Prop
  | turns (d : Deed) (hclient : c.network.client? d.station = some d.client)
      (hevent : d.event.isNews = true → d.event ∈ c.network.inbox d.station)
      (hdeeds : c'.deeds = c.deeds ++ [d])
      (hclients : ∀ u, c'.network.client? u =
        if u = d.station then some d.turn.client else c.network.client? u)
      (hroutes : ∀ u, c'.network.route? u = c.network.route? u)
      (hnews : ∀ u, c'.news u = c.news u)
      (hjobs : c'.network.jobs = c.network.jobs ++ d.turn.jobs d.station)
      (hrelay : c'.network.relay = d.turn.effects.foldl Relay.carry c.network.relay)
  | works (t : Nat) (j : Task) (phase : Phase) (news : List Event)
      (hj : c.network.jobs[t]? = some j)
      (hworks : j.Works c.network.relay (c.network.route? j.station) c'.network.relay phase news)
      (hdeeds : c'.deeds = c.deeds)
      (hclients : ∀ u, c'.network.client? u = c.network.client? u)
      (hroutes : ∀ u, c'.network.route? u = c.network.route? u)
      (hnews : ∀ u, ∃ more, c'.news u = c.news u ++ more ∧
        more.Sublist (if u = j.station then news else []))
      (hjobs : c'.network.jobs = c.network.jobs.set t { j with phase })
  | rests (hdeeds : c'.deeds = c.deeds)
      (hclients : ∀ u, c'.network.client? u = c.network.client? u)
      (hroutes : ∀ u, c'.network.route? u = c.network.route? u)
      (hnews : ∀ u, c'.news u = c.news u)
      (hjobs : c'.network.jobs = c.network.jobs)
      (hrelay : c'.network.relay = c.network.relay ∨
        (∃ line, c.network.relay.attend line = some c'.network.relay) ∨
        ∃ line d, c.network.relay.lines[line]?.any Line.isByHand = true ∧
          c'.network.relay = c.network.relay.onLink line (·.far d))

theorem moves_self (c : Chronicle) : c.Moves c :=
  .rests rfl (fun _ => rfl) (fun _ => rfl) (fun _ => rfl) rfl (Or.inl rfl)

theorem deedsOf_snoc {d : Deed} (hdeeds : c'.deeds = c.deeds ++ [d]) (u : Nat) :
    c'.deedsOf u = c.deedsOf u ++ if u = d.station then [d] else [] := by
  unfold deedsOf
  rw [hdeeds, List.filter_append]
  by_cases hu : u = d.station
  · simp [hu]
  · simp [hu, Ne.symm hu]

theorem moves_act (c : Chronicle) (s : Nat) (action : Action) : c.Moves (c.step (.act s action)) := by
  cases hstation : c.network.stations[s]? with
  | none =>
    have hstep : c.step (.act s action) = c := by
      simp [step, Network.happen, Network.deed?, Network.dispatch, hstation]
    rw [hstep]
    exact moves_self c
  | some station =>
    have hclient : c.network.client? s = some station.client := by
      simp [Network.client?, hstation]
    have hdeeds : (c.step (.act s action)).deeds = c.deeds ++ [⟨s, station.client, .action action⟩] := by
      simp [step, Network.deed?, hstation]
    have hnetwork : (c.step (.act s action)).network =
        c.network.complete s (station.client.process (.action action)) := by
      simp [step, Network.happen, Network.dispatch, hstation, Client.process]
    refine .turns _ hclient (by simp [Event.isNews]) hdeeds ?_ ?_ ?_ ?_ ?_
    · intro u
      rw [hnetwork, Network.client?_complete, hclient]
      rfl
    · intro u
      rw [hnetwork, Network.route?_complete]
    · intro u
      unfold news
      rw [deedsOf_snoc hdeeds, hnetwork, Network.inbox_complete]
      split <;> simp [Event.isNews]
    · rw [hnetwork, Network.jobs_complete]
      rfl
    · rw [hnetwork, Network.relay_complete]
      rfl

theorem moves_process (c : Chronicle) (s : Nat) : c.Moves (c.step (.process s)) := by
  cases hstation : c.network.stations[s]? with
  | none =>
    have hstep : c.step (.process s) = c := by
      simp [step, Network.happen, Network.deed?, Network.process?, hstation]
    rw [hstep]
    exact moves_self c
  | some station =>
    cases hinbox : station.inbox with
    | nil =>
      have hstep : c.step (.process s) = c := by
        simp [step, Network.happen, Network.deed?, Network.process?, hstation, hinbox]
      rw [hstep]
      exact moves_self c
    | cons event inbox =>
      have hclient : c.network.client? s = some station.client := by
        simp [Network.client?, hstation]
      have hhere : c.network.inbox s = event :: inbox := by simp [Network.inbox, hstation, hinbox]
      have hdeeds : (c.step (.process s)).deeds = c.deeds ++ [⟨s, station.client, event⟩] := by
        simp [step, Network.deed?, hstation, hinbox]
      let m := c.network.onStation s fun station => { station with inbox }
      have hnetwork : (c.step (.process s)).network =
          m.complete s (station.client.process event) := by
        simp [step, Network.happen, Network.process?, hstation, hinbox, m]
      have hclients : ∀ u, m.client? u = c.network.client? u := by
        intro u
        simp only [m, Network.client?, Network.onStation, List.getElem?_modify]
        by_cases hu : s = u <;> cases c.network.stations[u]? <;> simp [hu]
      have hroutes : ∀ u, m.route? u = c.network.route? u := by
        intro u
        simp only [m, Network.route?, Network.onStation, List.getElem?_modify]
        by_cases hu : s = u <;> cases c.network.stations[u]? <;> simp [hu]
      have hrest : ∀ u, m.inbox u = if u = s then inbox else c.network.inbox u := by
        intro u
        simp only [m, Network.inbox, Network.onStation, List.getElem?_modify]
        by_cases hu : u = s
        · subst hu
          simp [hstation]
        · simp [hu, Ne.symm hu]
      refine .turns _ hclient (fun _ => by simp [hhere]) hdeeds ?_ ?_ ?_ ?_ ?_
      · intro u
        rw [hnetwork, Network.client?_complete, hclients, hclients, hclient]
        rfl
      · intro u
        rw [hnetwork, Network.route?_complete, hroutes]
      · intro u
        unfold news
        rw [deedsOf_snoc hdeeds, hnetwork, Network.inbox_complete, hrest]
        by_cases hu : u = s
        · subst hu
          simp [hhere]
        · simp [hu]
      · rw [hnetwork, Network.jobs_complete]
        rfl
      · rw [hnetwork, Network.relay_complete]
        rfl

theorem moves_of_worked {t : Nat} {n : Network} (hdeeds : (c.step h).deeds = c.deeds)
    (hnetwork : (c.step h).network = n)
    (hworked : ∃ j phase news, c.network.jobs[t]? = some j ∧ c.network.Worked n t j phase news) :
    c.Moves (c.step h) := by
  subst hnetwork
  obtain ⟨j, phase, news, hj, hworked⟩ := hworked
  refine .works t j phase news hj hworked.works hdeeds hworked.clients hworked.routes ?_
    hworked.jobs
  intro u
  obtain ⟨more, hmore, hsub⟩ := hworked.inbox u
  refine ⟨more.filter Event.isNews, ?_, List.filter_sublist.trans hsub⟩
  unfold Chronicle.news deedsOf
  rw [hdeeds, hmore, ← List.append_assoc, List.filter_append]

/-- Nothing else ever happens. -/
theorem moves_step (c : Chronicle) (h : Happening) : c.Moves (c.step h) := by
  have hnone : ∀ h, c.network.deed? h = none → (c.step h).deeds = c.deeds := by
    intro h hdeed
    simp [step, hdeed]
  cases h with
  | act s action => exact moves_act c s action
  | process s => exact moves_process c s
  | entrust s action =>
    have hnetwork : (c.step (.entrust s action)).network = c.network.report s (.action action) := rfl
    refine .rests (hnone _ rfl) ?_ ?_ ?_ rfl (Or.inl rfl)
    · intro u
      rw [hnetwork, Network.client?_report]
    · intro u
      rw [hnetwork, Network.route?_report]
    · intro u
      obtain ⟨more, hmore, hsub⟩ := Network.inbox_report c.network s u (.action action)
      have hquiet : more.filter Event.isNews = [] := by
        apply List.filter_eq_nil_iff.mpr
        intro event hevent
        have hmem := hsub.subset hevent
        split at hmem
        · rw [List.mem_singleton] at hmem
          simp [hmem, Event.isNews]
        · simp at hmem
      unfold news deedsOf
      rw [hnone _ rfl, hnetwork, hmore, ← List.append_assoc, List.filter_append, hquiet,
        List.append_nil]
  | work t =>
    cases hwork : c.network.work t with
    | none =>
      have hstep : c.step (.work t) = c := by simp [step, Network.happen, Network.deed?, hwork]
      rw [hstep]
      exact moves_self c
    | some n =>
      have hnetwork : (c.step (.work t)).network = n := by simp [step, Network.happen, hwork]
      exact moves_of_worked (hnone _ rfl) hnetwork (Network.worked_work hwork)
  | lag t =>
    cases hlag : c.network.lag t with
    | none =>
      have hstep : c.step (.lag t) = c := by simp [step, Network.happen, Network.deed?, hlag]
      rw [hstep]
      exact moves_self c
    | some n =>
      have hnetwork : (c.step (.lag t)).network = n := by simp [step, Network.happen, hlag]
      exact moves_of_worked (hnone _ rfl) hnetwork (Network.worked_lag hlag)
  | attend line =>
    cases hattend : c.network.relay.attend line with
    | none =>
      have hstep : c.step (.attend line) = c := by
        simp [step, Network.happen, Network.deed?, Network.attend, hattend]
      rw [hstep]
      exact moves_self c
    | some r =>
      have hnetwork : (c.step (.attend line)).network = { c.network with relay := r } := by
        simp [step, Network.happen, Network.attend, hattend]
      refine .rests (hnone _ rfl) ?_ ?_ ?_ ?_ (Or.inr (Or.inl ⟨line, ?_⟩))
      · exact fun u => by rw [hnetwork]; rfl
      · exact fun u => by rw [hnetwork]; rfl
      · intro u
        unfold news deedsOf
        rw [hnone _ rfl, hnetwork]
        rfl
      · rw [hnetwork]
        rfl
      · rw [hnetwork, hattend]
  | answer line d =>
    by_cases hhand : c.network.relay.lines[line]?.any Line.isByHand = true
    · have hnetwork : (c.step (.answer line d)).network = c.network.onLink line (·.far d) := by
        simp [step, Network.happen, hhand]
      refine .rests (hnone _ rfl) ?_ ?_ ?_ ?_ (Or.inr (Or.inr ⟨line, d, hhand, ?_⟩))
      · exact fun u => by rw [hnetwork]; rfl
      · exact fun u => by rw [hnetwork]; rfl
      · intro u
        unfold news deedsOf
        rw [hnone _ rfl, hnetwork]
        rfl
      · rw [hnetwork]
        rfl
      · rw [hnetwork]
        rfl
    · have hstep : c.step (.answer line d) = c := by
        simp [step, Network.happen, Network.deed?, hhand]
      rw [hstep]
      exact moves_self c

/-- What holds at the beginning and is kept by every happening holds all the time. -/
theorem run_induction {P : Chronicle → Prop} (hstart : P c) (hstep : ∀ c h, P c → P (c.step h))
    (hs : List Happening) : P (c.run hs) := by
  induction hs generalizing c with
  | nil => exact hstart
  | cons h hs ih => exact ih (hstep c h hstart)

theorem run_append (c : Chronicle) (hs more : List Happening) :
    c.run (hs ++ more) = (c.run hs).run more := List.foldl_append

theorem client?_start {ids : SessionIds} {seats : List Seat} {client : Client}
    (h : (start ids seats).network.client? s = some client) :
    ∃ config script, client = .new config ⟨script, .idle⟩ := by
  unfold start Network.client? at h
  rw [List.getElem?_map] at h
  cases hseat : seats[s]? with
  | none => simp [hseat] at h
  | some seat =>
    simp only [hseat, Option.map_some, Option.some.injEq] at h
    exact ⟨_, _, h.symm⟩

/-- No client comes to a network that runs. -/
theorem exists_client_before {hs : List Happening} {last : Client}
    (h : (c.run hs).network.client? s = some last) :
    ∃ client, c.network.client? s = some client := by
  refine run_induction (P := fun c' => ∀ last, c'.network.client? s = some last →
    ∃ client, c.network.client? s = some client) (fun last h => ⟨last, h⟩) ?_ hs last h
  intro c' happening hbefore last hlast
  cases c'.moves_step happening with
  | works t j phase news hj hworks hdeeds hclients => exact hbefore last (hclients s ▸ hlast)
  | rests hdeeds hclients => exact hbefore last (hclients s ▸ hlast)
  | turns d hclient hevent hdeeds hclients =>
    by_cases hs : s = d.station
    · exact hbefore d.client (hs ▸ hclient)
    · rw [hclients, if_neg hs] at hlast
      exact hbefore last hlast

/-- What every turn of a client keeps, together with what the client has dealt with, is kept from
any point of a run to a later one. -/
theorem history_since {R : List Deed → Client → Prop}
    (hturn : ∀ ds d, R ds d.client → R (ds ++ [d]) d.turn.client) {client : Client}
    (hclient : c.network.client? s = some client) (h : R [] client) {hs : List Happening}
    {more : List Deed} (hmore : (c.run hs).deeds = c.deeds ++ more) :
    ∃ last, (c.run hs).network.client? s = some last ∧ R (more.filter (·.station = s)) last := by
  have hall : ∃ more, (c.run hs).deeds = c.deeds ++ more ∧
      ∃ last, (c.run hs).network.client? s = some last ∧
        R (more.filter (·.station = s)) last := by
    refine run_induction (P := fun c' => ∃ more, c'.deeds = c.deeds ++ more ∧
      ∃ last, c'.network.client? s = some last ∧ R (more.filter (·.station = s)) last)
      ⟨[], by simp, client, hclient, h⟩ ?_ hs
    rintro c' happening ⟨more, hdeeds, last, hlast, hbefore⟩
    cases c'.moves_step happening with
    | works t j phase news hj hworks hsame hclients =>
      exact ⟨more, hsame.trans hdeeds, last, (hclients s).trans hlast, hbefore⟩
    | rests hsame hclients =>
      exact ⟨more, hsame.trans hdeeds, last, (hclients s).trans hlast, hbefore⟩
    | turns d hd hevent hnew hclients =>
      refine ⟨more ++ [d], by rw [hnew, hdeeds, List.append_assoc], ?_⟩
      rw [List.filter_append]
      by_cases hs : s = d.station
      · subst hs
        rw [hlast, Option.some.injEq] at hd
        subst hd
        refine ⟨d.turn.client, by rw [hclients, if_pos rfl], ?_⟩
        simpa using hturn _ d hbefore
      · refine ⟨last, by rw [hclients, if_neg hs, hlast], ?_⟩
        simpa [Ne.symm hs] using hbefore
  obtain ⟨more', hmore', hlast⟩ := hall
  rw [hmore] at hmore'
  rw [List.append_cancel_left hmore']
  exact hlast

/-- So it is kept in a whole run. -/
theorem history_run {R : List Deed → Client → Prop}
    (hnew : ∀ config script, R [] (.new config ⟨script, .idle⟩))
    (hturn : ∀ ds d, R ds d.client → R (ds ++ [d]) d.turn.client) {ids : SessionIds} {seats : List Seat}
    {hs : List Happening} {client : Client}
    (h : ((start ids seats).run hs).network.client? s = some client) :
    R (((start ids seats).run hs).deedsOf s) client := by
  obtain ⟨first, hfirst⟩ := exists_client_before h
  obtain ⟨config, script, rfl⟩ := client?_start hfirst
  have hdeeds : ((start ids seats).run hs).deeds =
      (start ids seats).deeds ++ ((start ids seats).run hs).deeds :=
    rfl
  obtain ⟨last, hlast, hhistory⟩ := history_since hturn hfirst (hnew config script) hdeeds
  rw [h, Option.some.injEq] at hlast
  exact hlast ▸ hhistory

theorem news_start (ids : SessionIds) (seats : List Seat) (s : Nat) : (start ids seats).news s = [] := by
  have hinbox : (start ids seats).network.inbox s = [] := by
    unfold start Network.inbox
    rw [List.getElem?_map]
    cases seats[s]? <;> rfl
  unfold news deedsOf
  rw [hinbox]
  rfl

end Chronicle

/-! ## The tasks that a turn calls for -/

namespace Client

variable {c : Client} {event : Event} {t : Turn}

theorem jobs_closing (p : Presenting) (s : Nat) :
    (closing p).filterMap (Effect.job? s) = [] := by
  unfold closing
  cases p.outlet <;> rfl

theorem jobs_closings (c : Client) (s : Nat) : c.closings.filterMap (Effect.job? s) = [] := by
  unfold closings
  cases c.presenting with
  | none => rfl
  | some p => exact jobs_closing p s

theorem jobs_cancels (c : Client) (s : Nat) : c.cancels.filterMap (Effect.job? s) = [] := by
  unfold cancels
  cases c.watching <;> rfl

theorem Acts.jobs_cases {action : Action} (h : c.Acts action t) (s : Nat) :
    t.jobs s = [] ∧ t.client.generation = c.generation ∨
      ∃ purpose, t.jobs s = [⟨s, c.generation + 1, purpose, .calling, false⟩] ∧
        t.client.generation = c.generation + 1 := by
  cases h with
  | starts fresh =>
    refine Or.inr ⟨.present, ?_, rfl⟩
    unfold Turn.jobs turn
    rw [List.filterMap_append, jobs_closings]
    rfl
  | @follows url id h =>
    refine Or.inr ⟨.watch id, ?_, rfl⟩
    unfold Turn.jobs turn
    rw [List.filterMap_append, jobs_cancels]
    rfl
  | @stops p hp => exact Or.inl ⟨jobs_closing p s, rfl⟩
  | _ => exact Or.inl ⟨rfl, rfl⟩

/-- A turn calls for a task for each session that it opens. -/
theorem Turns.jobs_cases (h : c.Turns event t) (s : Nat) :
    t.jobs s = [] ∧ t.client.generation = c.generation ∨
      ∃ purpose, t.jobs s = [⟨s, c.generation + 1, purpose, .calling, false⟩] ∧
        t.client.generation = c.generation + 1 := by
  cases h with
  | acts h | repeats _ _ h => exact h.jobs_cases s
  | @establishes p id line hp =>
    refine Or.inl ⟨?_, rfl⟩
    unfold Turn.jobs turn
    rw [List.filterMap_map]
    simp [Effect.job?]
  | @loses p hp => exact Or.inl ⟨jobs_closing p s, rfl⟩
  | _ => exact Or.inl ⟨rfl, rfl⟩

end Client

end TurtleScript
