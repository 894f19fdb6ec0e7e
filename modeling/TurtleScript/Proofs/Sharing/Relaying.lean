-- The incidents that are about a session: it is opened, joined, continued or
-- ended. Each has its own facts and, from them, keeps those who follow.
import TurtleScript.Proofs.Sharing.Tracking

namespace TurtleScript

namespace Traffic

variable {t t' : Traffic} {n p w : Nat} {id i text action : String} {link link' : Link}
  {rest : List String} {s : Session}

/-! ## Lines of sessions -/

theorem Exact.greeting_of_line (h : t.Exact) (hline : t.relay.lines[n]? = some ⟨link, .greeting⟩) :
    (t.records n).heard = [] ∧ t.told n = [] ∧ link.down.hasSender = true := (h.suits n _ hline).1

theorem Exact.presents_of_line (h : t.Exact)
    (hline : t.relay.lines[p]? = some ⟨link, .presenting id⟩) :
    t.Presents p id ∧ (t.relay.session? id).isSome = true := (h.suits p _ hline).1

/-- The session of a line and the lines of its watchers. -/
theorem Exact.served (h : t.Exact) (hline : t.relay.lines[n]? = some ⟨link, .presenting id⟩)
    (hs : t.relay.session? id = some s) : s.log = (t.records n).actions ∧ s.watchers.Nodup ∧
      ∀ w ∈ s.watchers, w ≠ n ∧ t.Follows w n id := by
  obtain ⟨p, plink, hp, hlog, hnodup, hwatchers⟩ := h.sessions id s hs
  have hn := (h.presents_of_line hline).1
  obtain rfl := h.sole p n id (h.presents_of_line hp).1 hn
  refine ⟨hlog, hnodup, fun w hw => ⟨?_, hwatchers w hw⟩⟩
  rintro rfl
  exact (hwatchers w hw).1.not_presents hn

theorem Exact.session?_next (h : t.Exact) : t.relay.session? t.relay.ids.first = none := by
  rw [Option.eq_none_iff_forall_not_mem]
  intro s hs
  obtain ⟨p, link, hp, -⟩ := h.sessions _ s hs
  exact h.not_presents_next (h.presents_of_line hp).1

/-! ## Calls -/

section Greeting

variable (h : t.Exact) (hline : t.relay.lines[n]? = some ⟨link, .greeting⟩)

include h hline in
/-- A caller that was not heard yet has no part in any session. -/
theorem Exact.ne_of_greeting (hp : t.Presents p id) : p ≠ n := by
  rintro rfl
  exact (h.suits p _ hline).1.not_presents (Or.inl rfl) hp

include hline in
theorem Follows.ne_of_greeting (hw : t.Follows w p id) : w ≠ n := by
  rintro rfl
  obtain ⟨-, -, line, hw, hattendant, -⟩ := hw
  rw [hline, Option.some.injEq] at hw
  simp [← hw] at hattendant

include h hline in
/-- A call leaves the sessions that there are as they are. -/
theorem Exact.holds_beside {f : Link → Link} (hf : t.Frame t' n [] f)
    (hfollows : ∀ w p id, t.Follows w p id → t'.Follows w p id) (hs : t.relay.session? i = some s) :
    t'.Holds i s := by
  refine (h.sessions i s hs).frame ?_ hfollows
  intro p plink hp
  have hpn := h.ne_of_greeting hline (h.presents_of_line hp).1
  exact ⟨⟨plink, (hf.line_eq hpn List.not_mem_nil).trans hp⟩, by rw [hf.records p hpn]⟩

end Greeting

/-- A session was opened for a caller. -/
structure Opened (t t' : Traffic) (n : Nat) (link : Link) : Prop where
  frame : t.Frame t' n [] fun link => link
  before : t.relay.lines[n]? = some ⟨link, .greeting⟩
  after : ∃ link', t'.relay.lines[n]? = some ⟨link', .presenting t.relay.ids.first⟩ ∧
    Arrives (t'.records n) ⟨link', .presenting t.relay.ids.first⟩
  presents : t'.Presents n t.relay.ids.first
  actions : (t'.records n).actions = []
  ids : t'.relay.ids = t.relay.ids.rest
  session : ∀ i, t'.relay.session? i =
    if i = t.relay.ids.first then some ⟨[], []⟩ else t.relay.session? i

theorem Deals.opened (hd : t.Deals t' n ⟨link, .greeting⟩) (h : t.Exact)
    (hwaiting : link.up.waiting = text :: link'.up.waiting)
    (htext : Message.relayed? text = some .startSharing) (htouches : t.relay.Touches t'.relay n)
    (hsessions : t'.relay.sessions = t.relay.sessions ++ [(t.relay.ids.first, ⟨[], []⟩)])
    (hids : t'.relay.ids = t.relay.ids.rest)
    (hline' : t'.relay.lines[n]? = some ⟨link', .presenting t.relay.ids.first⟩)
    (hdown : link'.down.waiting = link.down.waiting ++ [assignedText t.relay.ids.first]) :
    t.Opened t' n link := by
  obtain ⟨hheard, htold, -⟩ := h.greeting_of_line hd.before
  have harrives := (h.suits n _ hd.before).2
  refine ⟨hd.frame htouches, hd.before, ⟨link', hline', ?_⟩, ⟨?_, ?_⟩, ?_, hids,
    Relay.session?_snoc hsessions h.session?_next⟩
  · exact hd.arrives harrives (by simp) fun _ => by simp [hwaiting]
  · simpa [Record.request?, hd.record, hheard, hwaiting] using htext
  · rw [hd.told hline', hdown, ← List.append_assoc]
    rw [told_of_line hd.before] at htold
    simp [htold]
  · simp [Record.actions, hd.record, hheard, hwaiting]

theorem Opened.keeps (ho : t.Opened t' n link) (h : t.Exact) (hp : t.Presents p i) :
    t'.Presents p i := by
  have hpn := h.ne_of_greeting ho.before hp
  exact (h.presents_iff (ho.frame.heard_prefix p)
    (Or.inl (ho.frame.told_eq hpn List.not_mem_nil))).mpr hp

theorem Opened.follows (ho : t.Opened t' n link) (h : t.Exact) (hw : t.Follows w p i) :
    t'.Follows w p i := by
  have hi : i ≠ t.relay.ids.first := fun hi => h.not_presents_next (hi ▸ hw.2.1)
  have hsession : t'.relay.session? i = t.relay.session? i := by rw [ho.session, if_neg hi]
  refine hw.frame ho.frame (hw.ne_of_greeting ho.before) List.not_mem_nil (ho.keeps h hw.2.1) ?_
    (.of_eq hsession)
  rw [ho.frame.records p (h.ne_of_greeting ho.before hw.2.1)]

theorem Opened.onward (ho : t.Opened t' n link) (h : t.Exact) : t.Onward t' := by
  obtain ⟨link', hline', harrives⟩ := ho.after
  have hfollows : ∀ w p id, t.Follows w p id → t'.Follows w p id := fun _ _ _ => ho.follows h
  have htold := (h.greeting_of_line ho.before).2.1
  refine h.onward ho.frame (by simp) (fun _ hid => SessionIds.mem_of_mem_rest (ho.ids ▸ hid))
    ⟨_, hline', ⟨ho.presents, by simp [ho.session]⟩, harrives⟩ ?_ (fun _ _ => ho.keeps h) ?_
    ⟨Or.inr (Or.inl ⟨_, ho.presents⟩), htold ▸ List.nil_prefix⟩ (by simp) hfollows ?_
  · intro m id _ _ hlive
    rw [ho.session]
    split
    · rfl
    · exact hlive
  · intro p id hp
    by_cases hpn : p = n
    · subst hpn
      obtain rfl := hp.inj ho.presents
      exact Or.inr ⟨rfl, rfl, ho.ids ▸ t.relay.ids.first_notMem_rest⟩
    · exact Or.inl ((h.presents_iff (ho.frame.heard_prefix p)
        (Or.inl (ho.frame.told_eq hpn List.not_mem_nil))).mp hp)
  · intro i s hs
    rw [ho.session] at hs
    split at hs
    · next hi =>
      rw [Option.some.injEq] at hs
      subst hs
      exact ⟨n, link', hi ▸ hline', ho.actions.symm, List.nodup_nil, by simp⟩
    · exact h.holds_beside ho.before ho.frame hfollows hs

/-- A caller was let into a session and has got all that was passed on in it. -/
structure Joined (t t' : Traffic) (n : Nat) (link : Link) (id : String) (s : Session) : Prop where
  frame : t.Frame t' n [] fun link => link
  before : t.relay.lines[n]? = some ⟨link, .greeting⟩
  after : ∃ link', t'.relay.lines[n]? = some ⟨link', .watching⟩ ∧
    Arrives (t'.records n) ⟨link', .watching⟩ ∧ link'.down.hasSender = true
  asks : t'.Asks n id
  told : t'.told n = s.log
  ids : t'.relay.ids = t.relay.ids
  found : t.relay.session? id = some s
  session : ∀ i, t'.relay.session? i =
    if i = id then some { s with watchers := s.watchers ++ [n] } else t.relay.session? i

theorem Deals.joined (hd : t.Deals t' n ⟨link, .greeting⟩) (h : t.Exact)
    (hwaiting : link.up.waiting = text :: link'.up.waiting)
    (htext : Message.relayed? text = some (.startWatching id)) (hs : t.relay.session? id = some s)
    (htouches : t.relay.Touches t'.relay n)
    (hsessions : t'.relay.sessions =
      (t.relay.onSession id fun s => { s with watchers := s.watchers ++ [n] }).sessions)
    (hids : t'.relay.ids = t.relay.ids)
    (hline' : t'.relay.lines[n]? = some ⟨link', .watching⟩)
    (hdown : link'.down = { link.down with waiting := link.down.waiting ++ s.log }) :
    t.Joined t' n link id s := by
  obtain ⟨hheard, htold, hsender⟩ := h.greeting_of_line hd.before
  have harrives := (h.suits n _ hd.before).2
  refine ⟨hd.frame htouches, hd.before, ⟨link', hline', ?_, by rw [hdown]; exact hsender⟩, ?_, ?_,
    hids, hs, ?_⟩
  · exact hd.arrives harrives (by simp) fun _ => by simp [hwaiting]
  · simpa [Asks, Record.request?, hd.record, hheard, hwaiting] using htext
  · rw [hd.told hline', hdown, ← List.append_assoc]
    rw [told_of_line hd.before] at htold
    simp [htold]
  · intro i
    rw [Relay.session?_congr hsessions i, Relay.session?_onSession]
    split
    · next hi => rw [hi, hs, Option.map_some]
    · rfl

theorem Joined.isSome (hj : t.Joined t' n link id s) (i : String) :
    (t'.relay.session? i).isSome = (t.relay.session? i).isSome := by
  rw [hj.session]
  split
  · next hi => rw [hi, hj.found]; rfl
  · rfl

theorem Joined.presents_iff (hj : t.Joined t' n link id s) (h : t.Exact) :
    t'.Presents p i ↔ t.Presents p i := by
  refine h.presents_iff (hj.frame.heard_prefix p) ?_
  by_cases hpn : p = n
  · exact Or.inr ⟨id, hpn ▸ hj.asks⟩
  · exact Or.inl (hj.frame.told_eq hpn List.not_mem_nil)

theorem Joined.follows (hj : t.Joined t' n link id s) (h : t.Exact) (hw : t.Follows w p i) :
    t'.Follows w p i := by
  refine hw.frame hj.frame (hw.ne_of_greeting hj.before) List.not_mem_nil
    ((hj.presents_iff h).mpr hw.2.1) ?_ ⟨hj.isSome i, ?_⟩
  · rw [hj.frame.records p (h.ne_of_greeting hj.before hw.2.1)]
  · intro s₁ s₂ hs₁ hs₂ hmem
    rw [hj.session] at hs₂
    split at hs₂
    · next hi =>
      rw [hi, hj.found, Option.some.injEq] at hs₁
      rw [Option.some.injEq] at hs₂
      exact hs₂ ▸ List.mem_append_left _ (hs₁ ▸ hmem)
    · rw [hs₁, Option.some.injEq] at hs₂
      exact hs₂ ▸ hmem

/-- The new watcher follows too. -/
theorem Joined.joins (hj : t.Joined t' n link id s) (h : t.Exact) (hp : t.Presents p id)
    (hlog : s.log = (t.records p).actions) : t'.Follows n p id := by
  obtain ⟨link', hline', -, hsender⟩ := hj.after
  have hactions : (t'.records p).actions = (t.records p).actions := by
    rw [hj.frame.records p (h.ne_of_greeting hj.before hp)]
  refine ⟨hj.asks, (hj.presents_iff h).mpr hp, _, hline', Or.inl rfl, fun _ => ⟨?_, ?_, ?_⟩⟩
  · rw [hj.told, hactions, hlog]
  · rw [hj.isSome, hj.found]
    simp [hsender]
  · intro s' hs'
    rw [hj.session, if_pos rfl, Option.some.injEq] at hs'
    exact hs' ▸ List.mem_append_right _ (List.mem_singleton_self n)

theorem Joined.holds (hj : t.Joined t' n link id s) (h : t.Exact) :
    t'.Holds id { s with watchers := s.watchers ++ [n] } := by
  obtain ⟨p, plink, hp, hlog, hnodup, hwatchers⟩ := h.sessions id s hj.found
  have hpid := (h.presents_of_line hp).1
  have hpn := h.ne_of_greeting hj.before hpid
  refine ⟨p, plink, (hj.frame.line_eq hpn List.not_mem_nil).trans hp, ?_,
    List.nodup_append.mpr ⟨hnodup, by simp, ?_⟩, ?_⟩
  · rw [hj.frame.records p hpn]
    exact hlog
  · rintro w hw m hm rfl
    exact (hwatchers w hw).ne_of_greeting hj.before (List.mem_singleton.mp hm)
  · intro w hw
    rcases List.mem_append.mp hw with hw | hw
    · exact hj.follows h (hwatchers w hw)
    · exact List.mem_singleton.mp hw ▸ hj.joins h hpid hlog

theorem Joined.onward (hj : t.Joined t' n link id s) (h : t.Exact) : t.Onward t' := by
  obtain ⟨link', hline', harrives, -⟩ := hj.after
  have hfollows : ∀ w p id, t.Follows w p id → t'.Follows w p id := fun _ _ _ => hj.follows h
  have htold := (h.greeting_of_line hj.before).2.1
  refine h.onward hj.frame (by simp) (by simp [hj.ids])
    ⟨_, hline', ⟨id, hj.asks⟩, harrives⟩ ?_ (fun _ _ => (hj.presents_iff h).mpr)
    (fun _ _ hq => Or.inl ((hj.presents_iff h).mp hq)) ⟨?_, htold ▸ List.nil_prefix⟩ (by simp)
    hfollows ?_
  · intro m i _ _ hlive
    exact (hj.isSome i).trans hlive
  · obtain ⟨p, plink, hp, hlog, -⟩ := h.sessions id s hj.found
    have hpid := (h.presents_of_line hp).1
    refine Or.inr (Or.inr ⟨id, p, hj.asks, (hj.presents_iff h).mpr hpid, ?_⟩)
    simp [hj.told, hlog, hj.frame.records p (h.ne_of_greeting hj.before hpid)]
  · intro i s' hs'
    rw [hj.session] at hs'
    split at hs'
    · next hi =>
      rw [Option.some.injEq] at hs'
      exact hi ▸ hs' ▸ hj.holds h
    · exact h.holds_beside hj.before hj.frame hfollows hs'

/-! ## What is passed on -/

section Elsewhere

variable {ws : List Nat} {f : Link → Link}

/-- Those who follow elsewhere are not concerned with what happens in a session. -/
theorem Follows.elsewhere (h : t.Follows w p i) (hf : t.Frame t' n ws f) (hn : t.Presents n id)
    (hws : ∀ w ∈ ws, t.Follows w n id) (hi : i ≠ id) (hpresents : t'.Presents p i)
    (hsession : t'.relay.session? i = t.relay.session? i) : t'.Follows w p i := by
  have hpn : p ≠ n := by
    rintro rfl
    exact hi (h.2.1.inj hn)
  refine h.frame hf ?_ ?_ hpresents (by rw [hf.records p hpn]) (.of_eq hsession)
  · rintro rfl
    exact h.1.not_presents hn
  · exact fun hmem => hi (h.1.inj (hws w hmem).1)

theorem Holds.elsewhere (hs : t.Holds i s) (h : t.Exact) (hf : t.Frame t' n ws f)
    (hn : t.Presents n id) (hws : ∀ w ∈ ws, t.Follows w n id) (hi : i ≠ id)
    (hfollows : ∀ w p id, t.Follows w p id → t'.Follows w p id) : t'.Holds i s := by
  refine hs.frame ?_ hfollows
  intro p plink hp
  have hpi := (h.presents_of_line hp).1
  have hpn : p ≠ n := by
    rintro rfl
    exact hi (hpi.inj hn)
  refine ⟨⟨plink, (hf.line_eq hpn ?_).trans hp⟩, by rw [hf.records p hpn]⟩
  exact fun hmem => (hws p hmem).1.not_presents hpi

end Elsewhere

/-- An action was passed on by the presenter of a session to those who could be reached. -/
structure Passed (t t' : Traffic) (n : Nat) (id action : String) (s : Session) : Prop where
  frame : t.Frame t' n (s.watchers.filter t.relay.reaches) (·.send .far action)
  before : ∃ link, t.relay.lines[n]? = some ⟨link, .presenting id⟩
  after : ∃ link', t'.relay.lines[n]? = some ⟨link', .presenting id⟩ ∧
    Arrives (t'.records n) ⟨link', .presenting id⟩
  told : t'.told n = t.told n
  actions : (t'.records n).actions = (t.records n).actions ++ [action]
  ids : t'.relay.ids = t.relay.ids
  found : t.relay.session? id = some s
  session : ∀ i, t'.relay.session? i = if i = id then
    some ⟨s.log ++ [action], s.watchers.filter t.relay.reaches⟩ else t.relay.session? i

theorem Deals.passed (hd : t.Deals t' n ⟨link, .presenting id⟩) (h : t.Exact)
    (hwaiting : link.up.waiting = text :: rest) (haction : passedAction? text = some action)
    (hrelay : t'.relay = (t.relay.onLink n fun _ => link.heard rest).publish id action) :
    ∃ s, t.Passed t' n id action s := by
  obtain ⟨hn, hsome⟩ := h.presents_of_line hd.before
  obtain ⟨s, hs⟩ := Option.isSome_iff_exists.mp hsome
  obtain ⟨-, hnodup, hwatchers⟩ := h.served hd.before hs
  have hnot : n ∉ s.watchers := fun hw => (hwatchers n hw).1 rfl
  have hfound : (t.relay.onLink n fun _ => link.heard rest).session? id = some s := hs
  obtain ⟨hsessions, hids, hserves⟩ := Relay.publish_spec hfound hnodup action
  rw [← hrelay] at hsessions hids hserves
  rw [Relay.filter_reaches_onLink _ hnot] at hsessions hserves
  have hself : t'.relay.lines[n]? = some ⟨link.heard rest, .presenting id⟩ := by
    rw [hserves.lines n, Relay.getElem?_onLink_self hd.before]
    simp [hnot]
  refine ⟨s, ⟨hd.others, hd.heard_prefix, ?_, fun l => l.up_send_far action⟩, ⟨link, hd.before⟩,
    ⟨_, hself, ?_⟩, ?_, ?_, hids, hs, ?_⟩
  · intro m hm
    rw [hserves.lines m, Relay.getElem?_onLink_ne _ hm]
  · exact hd.arrives (h.suits n _ hd.before).2 (by simp) fun _ => by simp [hwaiting, Link.heard]
  · rw [hd.told hself, told_of_line hd.before]
    rfl
  · have hheard : (t'.records n).heard = (t.records n).heard ++ [text] := by
      simp [hd.record, hwaiting]
    rw [Record.actions_snoc hn.1 hheard, haction]
    rfl
  · intro i
    rw [Relay.session?_congr hsessions i, Relay.session?_onSession]
    split
    · next hi =>
      rw [hi, Relay.session?_congr (Relay.sessions_onLink ..), hs, Option.map_some]
    · rfl

section Passed

variable (hp : t.Passed t' n id action s) (h : t.Exact)

include hp in
theorem Passed.isSome (i : String) :
    (t'.relay.session? i).isSome = (t.relay.session? i).isSome := by
  rw [hp.session]
  split
  · next hi => rw [hi, hp.found]; rfl
  · rfl

include hp h in
theorem Passed.served (hw : w ∈ s.watchers.filter t.relay.reaches) : t.Follows w n id := by
  obtain ⟨link, hline⟩ := hp.before
  exact ((h.served hline hp.found).2.2 w (List.mem_filter.mp hw).1).2

include hp h in
/-- Those who can be reached get the action, so they have got everything again. -/
theorem Passed.reached (hw : w ∈ s.watchers.filter t.relay.reaches) : ∃ line,
    t.relay.lines[w]? = some line ∧ line.link.down.takesMore = true ∧
      t'.relay.lines[w]? = some ⟨line.link.send .far action, line.attendant⟩ ∧
      t.told w <+: t'.told w ∧ t'.told w = (t'.records n).actions := by
  obtain ⟨plink, hn⟩ := hp.before
  obtain ⟨hwatches, hreaches⟩ := List.mem_filter.mp hw
  obtain ⟨hwn, -, -, line, hline, -, hexact⟩ := (h.served hn hp.found).2.2 w hwatches
  have hmore : line.link.down.takesMore = true := by
    simpa [Relay.reaches, Relay.link?, hline] using hreaches
  have hall := (hexact (Bool.and_eq_true_iff.mp hmore).2).1
  have hline' := hp.frame.lines w hwn
  rw [hline, Option.map_some, if_pos hw] at hline'
  have htold : t'.told w = t.told w ++ [action] := by
    rw [told_of_line hline', hp.frame.records w hwn, Link.down_send_far hmore, told_of_line hline,
      List.append_assoc]
  exact ⟨line, hline, hmore, hline', htold ▸ List.prefix_append _ _, by rw [htold, hall, hp.actions]⟩

include hp h in
theorem Passed.presents_iff {q : Nat} : t'.Presents q i ↔ t.Presents q i := by
  refine h.presents_iff (hp.frame.heard_prefix q) ?_
  by_cases hqn : q = n
  · exact Or.inl (hqn ▸ hp.told)
  · by_cases hq : q ∈ s.watchers.filter t.relay.reaches
    · exact Or.inr ⟨id, hp.frame.asks (hp.served h hq).1⟩
    · exact Or.inl (hp.frame.told_eq hqn hq)

include hp h in
theorem Passed.follows_here (hw : t.Follows w n id) : t'.Follows w n id := by
  obtain ⟨hasks, hn, line, hline, hattendant, hexact⟩ := hw
  have hsome : (t.relay.session? id).isSome = true := by rw [hp.found]; rfl
  by_cases hw : w ∈ s.watchers.filter t.relay.reaches
  · obtain ⟨before, hbefore, hmore, hline', -, hall⟩ := hp.reached h hw
    rw [hline, Option.some.injEq] at hbefore
    subst hbefore
    refine ⟨hp.frame.asks hasks, (hp.presents_iff h).mpr hn, _, hline', hattendant,
      fun _ => ⟨hall, ?_, ?_⟩⟩
    · rw [hp.isSome, hsome, Link.down_send_far hmore]
      simpa using (Bool.and_eq_true_iff.mp hmore).1
    · intro s' hs'
      rw [hp.session, if_pos rfl, Option.some.injEq] at hs'
      exact hs' ▸ hw
  · have hwn : w ≠ n := by
      rintro rfl
      exact hasks.not_presents hn
    refine ⟨hp.frame.asks hasks, (hp.presents_iff h).mpr hn, line,
      (hp.frame.line_eq hwn hw).trans hline, hattendant, fun hopen => absurd ?_ hw⟩
    obtain ⟨-, hsender, hwatches⟩ := hexact hopen
    refine List.mem_filter.mpr ⟨hwatches s hp.found, ?_⟩
    simp [Relay.reaches, Relay.link?, hline, Pipe.takesMore, hopen, hsender.mpr hsome]

include hp h in
theorem Passed.follows (hw : t.Follows w p i) : t'.Follows w p i := by
  obtain ⟨plink, hline⟩ := hp.before
  have hn := (h.presents_of_line hline).1
  by_cases hi : i = id
  · subst hi
    obtain rfl := h.sole p n i hw.2.1 hn
    exact hp.follows_here h hw
  · exact hw.elsewhere hp.frame hn (fun _ => hp.served h) hi ((hp.presents_iff h).mpr hw.2.1)
      (by rw [hp.session, if_neg hi])

include hp h in
theorem Passed.onward : t.Onward t' := by
  obtain ⟨plink, hline⟩ := hp.before
  obtain ⟨link', hline', harrives⟩ := hp.after
  obtain ⟨hn, hsome⟩ := h.presents_of_line hline
  obtain ⟨hlog, hnodup, -⟩ := h.served hline hp.found
  have hn' : t'.Presents n id := (hp.presents_iff h).mpr hn
  have hfollows : ∀ w p id, t.Follows w p id → t'.Follows w p id := fun _ _ _ => hp.follows h
  refine h.onward hp.frame (fun w hw => ⟨n, id, hp.served h hw⟩) (by simp [hp.ids])
    ⟨_, hline', ⟨hn', (hp.isSome id).trans hsome⟩, harrives⟩ ?_
    (fun _ _ => (hp.presents_iff h).mpr) (fun _ _ hq => Or.inl ((hp.presents_iff h).mp hq))
    ⟨Or.inr (Or.inl ⟨id, hn'⟩), hp.told ▸ List.prefix_rfl⟩ ?_ hfollows ?_
  · intro m i _ _ hlive
    exact (hp.isSome i).trans hlive
  · intro w hw
    obtain ⟨-, -, -, -, hmore, hall⟩ := hp.reached h hw
    refine ⟨Or.inr (Or.inr ⟨id, n, hp.frame.asks (hp.served h hw).1, hn', ?_⟩), hmore⟩
    exact hall ▸ List.prefix_rfl
  · intro i s' hs'
    rw [hp.session] at hs'
    split at hs'
    · next hi =>
      rw [Option.some.injEq] at hs'
      subst hi hs'
      exact ⟨n, link', hline', by rw [hp.actions, hlog], hnodup.filter _,
        fun w hw => hp.follows h (hp.served h hw)⟩
    · next hi =>
      exact (h.sessions i s' hs').elsewhere h hp.frame hn (fun _ => hp.served h) hi hfollows

end Passed

/-! ## Ends -/

/-- A session came to its end with its presenter. -/
structure Ended (t t' : Traffic) (n : Nat) (id : String) (s : Session) : Prop where
  frame : t.Frame t' n s.watchers (·.hangUp .far)
  before : ∃ link, t.relay.lines[n]? = some ⟨link, .presenting id⟩
  after : ∃ link', t'.relay.lines[n]? = some ⟨link', .gone⟩ ∧ Arrives (t'.records n) ⟨link', .gone⟩
  told : ∀ m, t'.told m = t.told m
  actions : (t'.records n).actions = (t.records n).actions
  ids : t'.relay.ids = t.relay.ids
  found : t.relay.session? id = some s
  session : ∀ i, t'.relay.session? i = if i = id then none else t.relay.session? i

theorem Deals.ended (hd : t.Deals t' n ⟨link, .presenting id⟩) (h : t.Exact)
    (hwaiting : link.up.waiting = []) (hrelay : t'.relay = (t.relay.closeSession id).leave n) :
    ∃ s, t.Ended t' n id s := by
  obtain ⟨-, hsome⟩ := h.presents_of_line hd.before
  obtain ⟨s, hs⟩ := Option.isSome_iff_exists.mp hsome
  obtain ⟨-, hnodup, hwatchers⟩ := h.served hd.before hs
  have hnot : n ∉ s.watchers := fun hw => (hwatchers n hw).1 rfl
  obtain ⟨hsessions, hids, hserves⟩ := Relay.closeSession_spec hs hnodup
  have hf : t.Frame t' n s.watchers (·.hangUp .far) := by
    refine ⟨hd.others, hd.heard_prefix, ?_, fun _ => rfl⟩
    intro m hm
    rw [hrelay, (Relay.touches_leave _ n).others m hm, hserves.lines m]
  have hself : t'.relay.lines[n]? = some ⟨link.leave .far, .gone⟩ := by
    have hclosed := hserves.lines n
    rw [hd.before, Option.map_some, if_neg hnot] at hclosed
    rw [hrelay]
    exact Relay.getElem?_leave_self hclosed
  refine ⟨s, hf, ⟨link, hd.before⟩, ⟨_, hself, ?_⟩, ?_, ?_, ?_, hs, ?_⟩
  · exact hd.arrives (h.suits n _ hd.before).2 (by simp) fun hstays => absurd rfl hstays
  · intro m
    by_cases hm : m = n
    · subst hm
      rw [hd.told hself, told_of_line hd.before]
      rfl
    · exact hf.told_quiet (fun _ => rfl) hm
  · simp [Record.actions, hd.record, hwaiting]
  · rw [hrelay]
    exact hids
  · refine Relay.session?_filter ?_
    rw [hrelay]
    exact hsessions

section Ended

variable (he : t.Ended t' n id s) (h : t.Exact)

include he h in
theorem Ended.served (hw : w ∈ s.watchers) : t.Follows w n id := by
  obtain ⟨link, hline⟩ := he.before
  exact ((h.served hline he.found).2.2 w hw).2

include he h in
theorem Ended.presents_iff {q : Nat} : t'.Presents q i ↔ t.Presents q i :=
  h.presents_iff (he.frame.heard_prefix q) (Or.inl (he.told q))

include he h in
/-- The watchers have got everything, and hear of the end. -/
theorem Ended.follows_here (hw : t.Follows w n id) : t'.Follows w n id := by
  obtain ⟨hasks, hn, line, hline, hattendant, hexact⟩ := hw
  have hwn : w ≠ n := by
    rintro rfl
    exact hasks.not_presents hn
  have hline' := he.frame.lines w hwn
  rw [hline, Option.map_some] at hline'
  by_cases hw : w ∈ s.watchers
  · rw [if_pos hw] at hline'
    refine ⟨he.frame.asks hasks, (he.presents_iff h).mpr hn, _, hline', hattendant,
      fun hopen => ⟨?_, ?_, ?_⟩⟩
    · rw [he.told, he.actions]
      exact (hexact hopen).1
    · simp [he.session, Link.hangUp, Link.withOutgoing, Pipe.hangUp]
    · simp [he.session]
  · rw [if_neg hw] at hline'
    refine ⟨he.frame.asks hasks, (he.presents_iff h).mpr hn, _, hline', hattendant,
      fun hopen => absurd ?_ hw⟩
    exact (hexact hopen).2.2 s he.found

include he h in
theorem Ended.follows (hw : t.Follows w p i) : t'.Follows w p i := by
  obtain ⟨plink, hline⟩ := he.before
  have hn := (h.presents_of_line hline).1
  by_cases hi : i = id
  · subst hi
    obtain rfl := h.sole p n i hw.2.1 hn
    exact he.follows_here h hw
  · exact hw.elsewhere he.frame hn (fun _ => he.served h) hi ((he.presents_iff h).mpr hw.2.1)
      (by rw [he.session, if_neg hi])

include he h in
theorem Ended.onward : t.Onward t' := by
  obtain ⟨plink, hline⟩ := he.before
  obtain ⟨link', hline', harrives⟩ := he.after
  have hn := (h.presents_of_line hline).1
  have hkeep : ∀ p i, t.Presents p i → t'.Presents p i := fun _ _ => (he.presents_iff h).mpr
  have hfollows : ∀ w p id, t.Follows w p id → t'.Follows w p id := fun _ _ _ => he.follows h
  have hfed : ∀ m, t'.Fed m ∧ t.told m <+: t'.told m := fun m =>
    ⟨(h.fed m).carry he.frame.heard_prefix (he.told m) hkeep, he.told m ▸ List.prefix_rfl⟩
  refine h.onward he.frame (fun w hw => ⟨n, id, he.served h hw⟩) (by simp [he.ids])
    ⟨_, hline', trivial, harrives⟩ ?_ hkeep (fun _ _ hq => Or.inl ((he.presents_iff h).mp hq))
    (hfed n) (fun w _ => hfed w) hfollows ?_
  · intro m i hm hmi hlive
    rw [he.session, if_neg]
    · exact hlive
    · rintro rfl
      exact hm (h.sole m n i hmi hn)
  · intro i s' hs'
    rw [he.session] at hs'
    split at hs'
    · cases hs'
    · next hi =>
      exact (h.sessions i s' hs').elsewhere h he.frame hn (fun _ => he.served h) hi hfollows

end Ended

end Traffic

end TurtleScript
