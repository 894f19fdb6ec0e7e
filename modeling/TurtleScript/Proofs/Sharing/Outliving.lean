-- What is known of the sessions of all clients at every point of a run: what
-- has ended has stayed so, and every beginning and every end was reported at
-- most once. Beginnings are counted with those that are still hoped for, since
-- it is the task that could report one twice.
import TurtleScript.Proofs.Sharing.Moving
import TurtleScript.Proofs.Sharing.Reporting

namespace TurtleScript

open SessionIds (counted)

/-! ## The record of a run -/

/-- The session of a task has not been reported yet but may still be. -/
def Task.hopes (s g : Nat) (j : Task) : Bool :=
  decide (j.station = s ∧ j.generation = g) && match j.phase with
    | .calling | .awaiting _ => true
    | .listening _ | .finished => false

namespace Chronicle

variable {c c' : Chronicle} {s g : Nat}

/-- Clients are coherent and have been all the time, no generation is given out again, and what has
ended has stayed so. -/
structure Orderly (c : Chronicle) : Prop where
  clients : ∀ s client, c.network.client? s = some client → client.Coherent
  deeds : ∀ d ∈ c.deeds, d.client.Coherent ∧ ∃ client, c.network.client? d.station = some client ∧
    d.turn.client.generation ≤ client.generation ∧
    ∀ g, d.turn.client.HasEnded g → client.HasEnded g

theorem orderly_start (ids : SessionIds) (seats : List Seat) : (start ids seats).Orderly where
  clients := by
    intro s client h
    obtain ⟨config, script, rfl⟩ := client?_start h
    exact Client.coherent_new config _
  deeds := by simp [start]

theorem Orderly.step (h : c.Orderly) (happening : Happening) : (c.step happening).Orderly := by
  have hstill : ∀ c' : Chronicle, c'.deeds = c.deeds →
      (∀ u, c'.network.client? u = c.network.client? u) → c'.Orderly := by
    intro c' hdeeds hclients
    constructor
    · intro s client hclient
      exact h.clients s client (hclients s ▸ hclient)
    · intro d hd
      rw [hclients]
      exact h.deeds d (hdeeds ▸ hd)
  cases c.moves_step happening with
  | works t j phase news hj hworks hdeeds hclients => exact hstill _ hdeeds hclients
  | rests hdeeds hclients => exact hstill _ hdeeds hclients
  | turns d hclient hevent hdeeds hclients =>
    have hd := h.clients d.station d.client hclient
    have hturn := d.client.turns_process d.event
    constructor
    · intro s client hs
      rw [hclients] at hs
      split at hs
      · rw [Option.some.injEq] at hs
        exact hs ▸ hturn.coherent hd
      · exact h.clients s client hs
    · intro e he
      rw [hdeeds, List.mem_append, List.mem_singleton] at he
      rcases he with he | rfl
      · obtain ⟨hcoherent, client, hsame, hgeneration, hended⟩ := h.deeds e he
        refine ⟨hcoherent, ?_⟩
        rw [hclients]
        split
        · rename_i hs
          rw [hs, hclient, Option.some.injEq] at hsame
          subst hsame
          exact ⟨_, rfl, Nat.le_trans hgeneration hturn.generation_le,
            fun g hg => (hended g hg).turns hturn⟩
        · exact ⟨client, hsame, hgeneration, hended⟩
      · refine ⟨hd, e.turn.client, ?_, Nat.le_refl _, fun g hg => hg⟩
        rw [hclients, if_pos rfl]

theorem orderly_run (ids : SessionIds) (seats : List Seat) (hs : List Happening) :
    ((start ids seats).run hs).Orderly :=
  run_induction (orderly_start ids seats) (fun _ h hc => hc.step h) hs

/-- A task tells of the beginning of its session only as long as there is hope of it. -/
theorem hopes_works {j : Task} {r r' : Relay} {route? : Option Route} {phase : Phase}
    {news : List Event} (h : j.Works r route? r' phase news) (s g : Nat) :
    (if j.station = s then news.countP (·.starts g) else 0) +
        (if ({ j with phase } : Task).hopes s g = true then 1 else 0) ≤
      if j.hopes s g = true then 1 else 0 := by
  cases h with
  | calls h ha =>
    cases hpurpose : j.purpose <;>
      by_cases hs : j.station = s <;> by_cases hg : j.generation = g <;>
        simp [Task.calledNews, Task.waits, Task.hopes, hpurpose, h, hs, hg, Event.starts]
  | quits h hnews line ds hds =>
    rcases hnews with rfl | rfl <;> simp [Task.hopes, Event.starts]
  | assigned h hlink hwaiting hid =>
    by_cases hs : j.station = s <;> by_cases hg : j.generation = g <;>
      simp [Task.hopes, h, hs, hg, Event.starts]
  | hears h hpurpose hlink hwaiting haction => simp [Task.hopes, Event.starts]
  | passesOver h hpurpose => simp [Task.hopes]

/-- The beginning of every session has been reported, is hoped for, or lies in the future, and only
one of these, once. -/
def Hopeful (c : Chronicle) : Prop :=
  ∀ s client g, c.network.client? s = some client →
    (c.news s).countP (·.starts g) + c.network.jobs.countP (·.hopes s g) +
      (if client.generation < g then 1 else 0) ≤ 1

theorem hopeful_start (ids : SessionIds) (seats : List Seat) : (start ids seats).Hopeful := by
  intro s client g h
  rw [news_start]
  have hjobs : (start ids seats).network.jobs = [] := rfl
  rw [hjobs]
  split <;> simp

theorem Hopeful.step (h : c.Hopeful) (happening : Happening) : (c.step happening).Hopeful := by
  intro s client g hclient
  cases c.moves_step happening with
  | rests hdeeds hclients hroutes hnews hjobs hrelay =>
    rw [hclients] at hclient
    rw [hnews, hjobs]
    exact h s client g hclient
  | turns d hd hevent hdeeds hclients hroutes hnews hjobs hrelay =>
    rw [hclients] at hclient
    rw [hnews, hjobs, List.countP_append]
    by_cases hs : s = d.station
    · subst hs
      rw [if_pos rfl, Option.some.injEq] at hclient
      subst hclient
      have hbefore := h d.station d.client g hd
      rcases (d.client.turns_process d.event).jobs_cases d.station with
        ⟨hnone, hsame⟩ | ⟨purpose, hone, hnext⟩
      · unfold Deed.turn
        rw [hnone, hsame]
        simpa using hbefore
      · unfold Deed.turn
        have hnew : [(⟨d.station, d.client.generation + 1, purpose, .calling, false⟩ : Task)].countP
            (·.hopes d.station g) = if d.client.generation + 1 = g then 1 else 0 := by
          simp [Task.hopes, List.countP_cons]
        rw [hone, hnext, hnew]
        split at hbefore <;> split <;> split <;> omega
    · rw [if_neg hs] at hclient
      have hnone : (d.turn.jobs d.station).countP (·.hopes s g) = 0 := by
        rcases (d.client.turns_process d.event).jobs_cases d.station with
          ⟨hnone, -⟩ | ⟨purpose, hone, -⟩
        · unfold Deed.turn
          rw [hnone]
          rfl
        · unfold Deed.turn
          rw [hone]
          simp [Task.hopes, Ne.symm hs]
      rw [hnone]
      exact h s client g hclient
  | works t j phase news hj hworks hdeeds hclients hroutes hnews hjobs =>
    rw [hclients] at hclient
    obtain ⟨more, hmore, hsub⟩ := hnews s
    have hbefore := h s client g hclient
    have hstep := hopes_works hworks s g
    have hcount : more.countP (·.starts g) ≤
        if j.station = s then news.countP (·.starts g) else 0 := by
      have hle := hsub.countP_le (p := (·.starts g))
      by_cases hs : j.station = s
      · simpa [hs] using hle
      · simpa [hs, Ne.symm hs] using hle
    obtain ⟨hlt, hget⟩ := List.getElem?_eq_some_iff.mp hj
    have hset := List.countP_set (p := (·.hopes s g)) (a := { j with phase }) hlt
    have hpos : (if c.network.jobs[t].hopes s g = true then 1 else 0) ≤
        c.network.jobs.countP (·.hopes s g) := by
      split
      · exact List.countP_pos_iff.mpr ⟨_, List.getElem_mem hlt, ‹_›⟩
      · exact Nat.zero_le _
    rw [hmore, List.countP_append, hjobs, hset]
    rw [hget] at hpos ⊢
    omega

theorem hopeful_run (ids : SessionIds) (seats : List Seat) (hs : List Happening) :
    ((start ids seats).run hs).Hopeful :=
  run_induction (hopeful_start ids seats) (fun _ h hc => hc.step h) hs

/-- News that a client has dealt with were reported. -/
theorem countP_deedsOf_le (c : Chronicle) (s : Nat) {p : Event → Bool}
    (hp : ∀ event, p event = true → event.isNews = true) :
    (c.deedsOf s).countP (p ·.event) ≤ (c.news s).countP p := by
  have hnews : (c.news s).countP p =
      ((c.deedsOf s).map (·.event) ++ c.network.inbox s).countP p := by
    unfold news
    rw [List.countP_filter]
    apply List.countP_congr
    intro event _
    cases hevent : p event with
    | false => simp
    | true => simp [hp event hevent]
  rw [hnews, List.countP_append, List.countP_map]
  exact Nat.le_add_right _ _

theorem isNews_of_starts {event : Event} {g : Nat} (h : event.starts g = true) :
    event.isNews = true := by
  cases event with
  | action => cases h
  | _ => rfl

theorem length_started_le (hc : c.Hopeful) {client : Client}
    (hclient : c.network.client? s = some client) (hhonest : ∀ d ∈ c.deeds, d.event.isHonest = true)
    (role : Role) (g : Nat) : ((c.deedsOf s).flatMap (·.started role g)).length ≤ 1 := by
  have hall : ∀ ds : List Deed, (∀ d ∈ ds, d.event.isHonest = true) →
      (ds.flatMap (·.started role g)).length ≤ ds.countP (·.event.starts g) := by
    intro ds
    induction ds with
    | nil => exact fun _ => Nat.le_refl _
    | cons d ds ih =>
      intro hds
      have hfirst := Deed.length_started_le (hds d List.mem_cons_self) role g
      have hrest := ih fun e he => hds e (List.mem_cons_of_mem _ he)
      rw [List.flatMap_cons, List.length_append, List.countP_cons]
      omega
  have hdeeds := hall (c.deedsOf s) fun d hd => hhonest d (List.mem_of_mem_filter hd)
  have hreported := c.countP_deedsOf_le s fun _ => isNews_of_starts (g := g)
  have hone := hc s client g hclient
  omega

/-- What a client has dealt with, and the client then: the end of a session has been reported once
if it has ended, and not before, and the client shows rightly for what it has sessions. -/
structure Accounts (ds : List Deed) (client : Client) : Prop where
  coherent : client.Coherent
  stopped : ∀ role g, (ds.flatMap (·.stopped role g)).length ≤ 1 ∧
    ((ds.flatMap (·.stopped role g)).length ≠ 0 → client.HasEnded g)
  shows : client.ShowsRightly

theorem accounts_new (config : Config) (script : Timeline Script) :
    Accounts [] (.new config ⟨script, .idle⟩) where
  coherent := Client.coherent_new config _
  stopped := by simp
  shows := Client.showsRightly_new config script

theorem Accounts.snoc {ds : List Deed} {d : Deed} (h : Accounts ds d.client)
    (hd : d.event.isHonest = true) : Accounts (ds ++ [d]) d.turn.client := by
  have hturn := d.client.turns_process d.event
  refine ⟨hturn.coherent h.coherent, fun role g => ?_, hturn.showsRightly hd h.shows⟩
  rw [List.flatMap_append, List.length_append]
  obtain ⟨hone, hended⟩ := h.stopped role g
  obtain ⟨hlast, hends⟩ := Deed.length_stopped_le hd h.coherent role g
  have hd1 : ([d].flatMap (·.stopped role g)).length = (d.stopped role g).length := by simp
  rw [hd1]
  by_cases hzero : (d.stopped role g).length = 0
  · rw [hzero, Nat.add_zero]
    exact ⟨hone, fun hne => (hended hne).turns hturn⟩
  · obtain ⟨hlive, hnow⟩ := hends hzero
    have hbefore : (ds.flatMap (·.stopped role g)).length = 0 := by
      by_contra hne
      exact hlive (hended hne)
    rw [hbefore]
    exact ⟨by omega, fun _ => hnow⟩

theorem accounts_run {ids : SessionIds} {seats : List Seat} {hs : List Happening} {client : Client}
    (hclient : ((start ids seats).run hs).network.client? s = some client)
    (hhonest : ∀ d ∈ ((start ids seats).run hs).deeds, d.event.isHonest = true) :
    Accounts (((start ids seats).run hs).deedsOf s) client := by
  have hhistory := history_run (R := fun ds client =>
    (∀ d ∈ ds, d.event.isHonest = true) → Accounts ds client)
    (fun config script _ => accounts_new config script) (fun ds d h hds =>
      (h fun e he => hds e (List.mem_append_left _ he)).snoc (hds d (by simp))) hclient
  exact hhistory fun d hd => hhonest d (List.mem_of_mem_filter hd)

end Chronicle

/-! ## The law -/

/-- Whatever happens to a client, in whatever order: once a session of it has been ended, be it that
its user has stopped it or begun another one in its place or that its task has reported its end,
every event of that session leaves the client as it is and dispatches nothing. A session reports its
beginning at most once and its end at most once, and nobody else does. Where the client shows that
it shares or watches, it has a session for that. -/
theorem dead_sessions_are_inert (ids : SessionIds) (seats : List Seat) (hs : List Happening)
    (hhonest : ∀ d ∈ ((Chronicle.start ids seats).run hs).deeds, d.event.isHonest = true) :
    let c := (Chronicle.start ids seats).run hs
    ∀ s client, c.network.client? s = some client →
      (∀ d ∈ c.deedsOf s, ∀ role g, d.client.holds role g = true → d.event.ends role g = true →
        ∀ event : Event, event.session? = some g →
          (client.process event).client = client ∧ (client.process event).dispatched = []) ∧
      (∀ role g, ((c.deedsOf s).flatMap (·.started role g)).length ≤ 1 ∧
        ((c.deedsOf s).flatMap (·.stopped role g)).length ≤ 1) ∧
      (∀ d ∈ c.deedsOf s, ∀ role, ∀ action ∈ d.turn.dispatched,
        action.isStarted role = true ∨ action.isStopped role = true →
          ∃ g, d.client.holds role g = true) ∧
      (client.store.environment.isSharing = true → client.presenting.isSome = true) ∧
      (client.store.environment.isWatching = true → client.watching.isSome = true) := by
  intro c s client hclient
  have horderly : c.Orderly := Chronicle.orderly_run ids seats hs
  have hhopeful : c.Hopeful := Chronicle.hopeful_run ids seats hs
  have haccounts : Chronicle.Accounts (c.deedsOf s) client :=
    Chronicle.accounts_run hclient hhonest
  have hshows := haccounts.shows
  refine ⟨?_, fun role g => ⟨?_, ?_⟩, ?_, fun h => ?_, fun h => ?_⟩
  · intro d hd role g hholds hends event hevent
    obtain ⟨hmem, hstation⟩ := List.mem_filter.mp hd
    simp only [decide_eq_true_eq] at hstation
    obtain ⟨hcoherent, later, hlater, -, hstays⟩ := horderly.deeds d hmem
    rw [hstation, hclient, Option.some.injEq] at hlater
    subst hlater
    have hended := (d.client.turns_process d.event).hasEnded hcoherent hholds hends
    obtain ⟨hsame, hnothing, -⟩ := (hstays g hended).ignores hevent
    exact ⟨hsame, hnothing⟩
  · exact Chronicle.length_started_le hhopeful hclient hhonest role g
  · exact (haccounts.stopped role g).1
  · intro d hd role action haction hreport
    have hreports := d.reports (hhonest d (List.mem_of_mem_filter hd))
    have hmem : action ∈ d.turn.dispatched.filter Action.isReport := by
      refine List.mem_filter.mpr ⟨haction, ?_⟩
      cases action <;> simp_all [Action.isStarted, Action.isStopped, Action.isReport]
    generalize d.turn.dispatched.filter Action.isReport = reports at hreports hmem
    cases hreports with
    | nothing _ => simp at hmem
    | @started role' g report hholds hstarts hkind =>
      rw [List.mem_singleton] at hmem
      subst hmem
      rcases hreport with h | h
      · exact ⟨g, Deed.isStarted_inj hkind h ▸ hholds⟩
      · rw [Deed.isStopped_of_isStarted hkind] at h
        cases h
    | @stopped role' g report hholds hends hkind hothers =>
      rw [List.mem_singleton] at hmem
      subst hmem
      rcases hreport with h | h
      · rw [Deed.isStarted_of_isStopped hkind] at h
        cases h
      · exact ⟨g, Deed.isStopped_inj hkind h ▸ hholds⟩
  · obtain ⟨g, hg⟩ := hshows .presenter h
    obtain ⟨p, hp, -⟩ := Client.isPresenting_iff.mp hg
    simp [hp]
  · obtain ⟨g, hg⟩ := hshows .observer h
    obtain ⟨w, hw, -⟩ := Client.isWatching_iff.mp hg
    simp [hw]

/-- A client whose call is answered only after its user has stopped and begun anew. -/
def restarted : Chronicle :=
  (Chronicle.start counted [⟨.default, .start .empty, .relay⟩]).run
    [.act 0 (.startSharing true), .work 0, .attend 0, .work 0, .act 0 .stopSharing,
      .act 0 (.startSharing false), .process 0]

theorem late_answer_is_ignored :
    ∃ client, restarted.network.client? 0 = some client ∧ client.holds .presenter 2 = true ∧
      (client.process (.presenterReady 1 counted.first 0)).client = client ∧
      (client.process (.presenterReady 1 counted.first 0)).dispatched = [] := by
  have hlaw := dead_sessions_are_inert counted [⟨.default, .start .empty, .relay⟩]
    [.act 0 (.startSharing true), .work 0, .attend 0, .work 0, .act 0 .stopSharing,
      .act 0 (.startSharing false), .process 0] (by decide +kernel)
  have hsome : (restarted.network.client? 0).isSome = true := by decide +kernel
  obtain ⟨client, hclient⟩ := Option.isSome_iff_exists.mp hsome
  have hholds : (restarted.network.client? 0).any (·.holds .presenter 2) = true := by
    decide +kernel
  rw [hclient] at hholds
  have hended : ∃ d ∈ restarted.deedsOf 0, d.client.holds .presenter 1 = true ∧
      d.event.ends .presenter 1 = true := by decide +kernel
  obtain ⟨d, hd, hheld, hends⟩ := hended
  obtain ⟨hdead, -⟩ := hlaw 0 client hclient
  obtain ⟨hsame, hnothing⟩ := hdead d hd .presenter 1 hheld hends
    (.presenterReady 1 counted.first 0) rfl
  exact ⟨client, hclient, hholds, hsame, hnothing⟩

end TurtleScript
