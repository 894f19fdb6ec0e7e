-- What is known of all traffic on the lines of a relay: the log of a session
-- is what its presenter has passed on, and each watcher that can still be
-- reached has been sent all of it. Here are the incidents that are about no
-- session; they keep what is known.
import TurtleScript.Proofs.Sharing.Attending
import TurtleScript.Proofs.Sharing.Traffic

namespace TurtleScript

namespace Traffic

variable {t t' : Traffic} {n m p w : Nat} {id : String} {line : Line}

/-! ## What is known -/

/-- A watcher that was let into the session of a presenter. As long as it can be reached it has
been sent all that was passed on, and it hears of the end of the session. -/
def Follows (t : Traffic) (w p : Nat) (id : String) : Prop :=
  t.Asks w id ∧ t.Presents p id ∧ ∃ line, t.relay.lines[w]? = some line ∧
    (line.attendant = .watching ∨ line.attendant = .gone) ∧
    (line.link.down.isOpen = true → t.told w = (t.records p).actions ∧
      (line.link.down.hasSender = true ↔ (t.relay.session? id).isSome = true) ∧
      ∀ s, t.relay.session? id = some s → w ∈ s.watchers)

/-- What is known of a line by who attends to it. -/
def Suits (t : Traffic) (n : Nat) (line : Line) : Prop :=
  match line.attendant with
  | .greeting => (t.records n).heard = [] ∧ t.told n = [] ∧ line.link.down.hasSender = true
  | .presenting id => t.Presents n id ∧ (t.relay.session? id).isSome = true
  | .watching => ∃ id, t.Asks n id
  | .gone => True
  | .outsider _ => False

/-- All messages on a line arrive in order until its attendant leaves. -/
structure Arrives (r : Record) (line : Line) : Prop where
  heard : r.heard <+: r.said
  waiting : line.attendant ≠ .gone → r.said = r.heard ++ line.link.up.waiting

/-- A caller was told nothing, or the id of its session, or something of the session that it
asked for. -/
def Fed (t : Traffic) (n : Nat) : Prop :=
  t.told n = [] ∨ (∃ id, t.Presents n id) ∨
    ∃ id p, t.Asks n id ∧ t.Presents p id ∧ t.told n <+: (t.records p).actions

/-- A session has one presenter, keeps what that has passed on, and its watchers follow. -/
def Holds (t : Traffic) (id : String) (s : Session) : Prop :=
  ∃ p link, t.relay.lines[p]? = some ⟨link, .presenting id⟩ ∧ s.log = (t.records p).actions ∧
    s.watchers.Nodup ∧ ∀ w ∈ s.watchers, t.Follows w p id

/-- All that is known. Every id is of one presenter, and none that is still to come is of any. -/
structure Exact (t : Traffic) : Prop where
  beyond : ∀ n, t.relay.lines[n]? = none → t.records n = .empty
  suits : ∀ n line, t.relay.lines[n]? = some line → t.Suits n line ∧ Arrives (t.records n) line
  fed : ∀ n, t.Fed n
  issued : ∀ p id, t.Presents p id → id ∉ t.relay.ids
  sole : ∀ p q id, t.Presents p id → t.Presents q id → p = q
  sessions : ∀ id s, t.relay.session? id = some s → t.Holds id s

/-- What is known stays known: those who present or follow go on doing so, and what was sent was
sent. -/
structure Onward (t t' : Traffic) : Prop where
  exact : t'.Exact
  presents : ∀ p id, t.Presents p id → t'.Presents p id
  follows : ∀ w p id, t.Follows w p id → t'.Follows w p id
  told : ∀ n, t.told n <+: t'.told n

theorem Onward.refl (h : t.Exact) : t.Onward t :=
  ⟨h, fun _ _ hp => hp, fun _ _ _ hw => hw, fun _ => List.prefix_rfl⟩

theorem Onward.trans {u : Traffic} (h : t.Onward t') (h' : t'.Onward u) : t.Onward u where
  exact := h'.exact
  presents := fun p id hp => h'.presents p id (h.presents p id hp)
  follows := fun w p id hw => h'.follows w p id (h.follows w p id hw)
  told := fun n => (h.told n).trans (h'.told n)

/-! ## What incidents leave alone -/

/-- Only one line is dealt with; the far ends of some others are used in a certain way. -/
structure Frame (t t' : Traffic) (n : Nat) (ws : List Nat) (f : Link → Link) : Prop where
  records : ∀ m, m ≠ n → t'.records m = t.records m
  heard : (t.records n).heard <+: (t'.records n).heard
  lines : ∀ m, m ≠ n → t'.relay.lines[m]? =
    t.relay.lines[m]?.map fun line => if m ∈ ws then ⟨f line.link, line.attendant⟩ else line
  up : ∀ link, (f link).up = link.up

section Frame

variable {ws : List Nat} {f : Link → Link}

theorem Frame.heard_prefix (hf : t.Frame t' n ws f) (m : Nat) :
    (t.records m).heard <+: (t'.records m).heard := by
  by_cases hm : m = n
  · exact hm ▸ hf.heard
  · simp [hf.records m hm]

theorem Frame.asks (hf : t.Frame t' n ws f) (h : t.Asks w id) : t'.Asks w id :=
  Record.request?_of_prefix (hf.heard_prefix w) h

theorem Frame.line_eq (hf : t.Frame t' n ws f) (hm : m ≠ n) (hws : m ∉ ws) :
    t'.relay.lines[m]? = t.relay.lines[m]? := by
  rw [hf.lines m hm]
  simp [hws]

theorem Frame.told_eq (hf : t.Frame t' n ws f) (hm : m ≠ n) (hws : m ∉ ws) :
    t'.told m = t.told m := by
  unfold told Relay.link?
  rw [hf.records m hm, hf.line_eq hm hws]

theorem Frame.told_quiet (hf : t.Frame t' n ws f)
    (hquiet : ∀ link, (f link).down.waiting = link.down.waiting) (hm : m ≠ n) :
    t'.told m = t.told m := by
  unfold told Relay.link?
  rw [hf.records m hm, hf.lines m hm]
  cases t.relay.lines[m]? with
  | none => rfl
  | some line => by_cases hmem : m ∈ ws <;> simp [hmem, hquiet]

end Frame

theorem Presents.inj {id' : String} (h : t.Presents p id) (h' : t.Presents p id') : id = id' := by
  have hsame := h.2.symm.trans h'.2
  rw [List.cons.injEq] at hsame
  exact assignedText_inj hsame.1

/-- Who presents stays the same, unless somebody new is told an id. -/
theorem Exact.presents_iff (h : t.Exact) (hheard : (t.records p).heard <+: (t'.records p).heard)
    (htold : t'.told p = t.told p ∨ ∃ id, t'.Asks p id) : t'.Presents p id ↔ t.Presents p id := by
  constructor
  · intro hpresents
    have hsame : t'.told p = t.told p := by
      rcases htold with hsame | ⟨_, hasks⟩
      · exact hsame
      · exact absurd hpresents hasks.not_presents
    rcases h.fed p with hnone | ⟨id', hbefore⟩ | ⟨id', q, hasks, -, -⟩
    · rw [hpresents.2, hnone] at hsame
      simp at hsame
    · rw [hpresents.2, hbefore.2, List.cons.injEq] at hsame
      exact assignedText_inj hsame.1 ▸ hbefore
    · have hasks' : t'.Asks p id' := Record.request?_of_prefix hheard hasks
      exact absurd hpresents hasks'.not_presents
  · intro hpresents
    have hrequest := Record.request?_of_prefix hheard hpresents.1
    rcases htold with hsame | ⟨_, hasks⟩
    · exact ⟨hrequest, hsame.trans hpresents.2⟩
    · unfold Asks at hasks
      rw [hrequest] at hasks
      simp at hasks

theorem Exact.not_presents_next (h : t.Exact) : ¬ t.Presents p t.relay.ids.first := by
  exact fun hp => h.issued p _ hp t.relay.ids.first_mem

/-! ## Lines -/

/-- Those who follow on a line do not notice a difference, unless they have gone. -/
def Lasts (line line' : Line) : Prop :=
  line.attendant = .watching ∨ line.attendant = .gone →
    (line'.attendant = .watching ∨ line'.attendant = .gone) ∧
      (line'.link.down.isOpen = true → line.link.down.isOpen = true ∧
        line'.link.down.hasSender = line.link.down.hasSender)

theorem Lasts.refl (line : Line) : Lasts line line := fun h => ⟨h, fun hopen => ⟨hopen, rfl⟩⟩

/-- A session stays, if it does, with one of its watchers. -/
structure Stays (t t' : Traffic) (w : Nat) (id : String) : Prop where
  isSome : (t'.relay.session? id).isSome = (t.relay.session? id).isSome
  watchers : ∀ s s', t.relay.session? id = some s → t'.relay.session? id = some s' →
    w ∈ s.watchers → w ∈ s'.watchers

theorem Stays.of_eq (h : t'.relay.session? id = t.relay.session? id) : t.Stays t' w id := by
  refine ⟨by rw [h], ?_⟩
  intro s s' hs hs' hmem
  rw [h, hs, Option.some.injEq] at hs'
  exact hs' ▸ hmem

theorem Follows.carry (h : t.Follows w p id) {line line' : Line}
    (hasks : t'.Asks w id) (hpresents : t'.Presents p id)
    (hline : t.relay.lines[w]? = some line) (hline' : t'.relay.lines[w]? = some line')
    (hlasts : Lasts line line') (htold : t'.told w = t.told w)
    (hactions : (t'.records p).actions = (t.records p).actions) (hstays : t.Stays t' w id) :
    t'.Follows w p id := by
  obtain ⟨-, -, before, hbefore, hattendant, hexact⟩ := h
  rw [hline, Option.some.injEq] at hbefore
  subst hbefore
  obtain ⟨hattendant', hopen'⟩ := hlasts hattendant
  refine ⟨hasks, hpresents, line', hline', hattendant', ?_⟩
  intro hopen
  obtain ⟨hbefore, hsender⟩ := hopen' hopen
  obtain ⟨hall, hends, hmem⟩ := hexact hbefore
  refine ⟨by rw [htold, hactions, hall], by rw [hsender, hstays.isSome, hends], ?_⟩
  intro s' hs'
  obtain ⟨s, hs⟩ := Option.isSome_iff_exists.mp (hstays.isSome ▸ Option.isSome_of_eq_some hs')
  exact hstays.watchers s s' hs hs' (hmem s hs)

theorem Suits.carry (h : t.Suits n line) {line' : Line}
    (hattendant : line'.attendant = line.attendant)
    (hheard : (t.records n).heard <+: (t'.records n).heard)
    (hgreeting : line.attendant = .greeting → (t'.records n).heard = (t.records n).heard)
    (htold : t'.told n = t.told n)
    (hsender : line'.link.down.hasSender = line.link.down.hasSender)
    (hsession : ∀ id, t.Presents n id → (t.relay.session? id).isSome = true →
      (t'.relay.session? id).isSome = true) : t'.Suits n line' := by
  unfold Suits at h ⊢
  rw [hattendant]
  cases hcase : line.attendant with
  | greeting =>
    rw [hcase] at h
    exact ⟨(hgreeting hcase).trans h.1, htold.trans h.2.1, hsender.trans h.2.2⟩
  | presenting id =>
    rw [hcase] at h
    exact ⟨⟨Record.request?_of_prefix hheard h.1.1, htold.trans h.1.2⟩, hsession id h.1 h.2⟩
  | watching =>
    rw [hcase] at h
    exact h.imp fun id hasks => Record.request?_of_prefix hheard hasks
  | gone => trivial
  | outsider s =>
    rw [hcase] at h
    exact h

theorem Arrives.carry {r : Record} (h : Arrives r line) {line' : Line}
    (hattendant : line'.attendant = line.attendant) (hup : line'.link.up = line.link.up) :
    Arrives r line' where
  heard := h.heard
  waiting := by
    rw [hattendant, hup]
    exact h.waiting

theorem Fed.carry (h : t.Fed n) (hheard : ∀ m, (t.records m).heard <+: (t'.records m).heard)
    (htold : t'.told n = t.told n) (hpresents : ∀ p id, t.Presents p id → t'.Presents p id) :
    t'.Fed n := by
  rcases h with hnone | ⟨id, hn⟩ | ⟨id, p, hasks, hp, htexts⟩
  · exact Or.inl (htold.trans hnone)
  · exact Or.inr (Or.inl ⟨id, hpresents n id hn⟩)
  · refine Or.inr (Or.inr ⟨id, p, Record.request?_of_prefix (hheard n) hasks, hpresents p id hp, ?_⟩)
    rw [htold]
    exact htexts.trans (Record.actions_prefix (hheard p))

/-! ## Incidents -/

section Frame

variable {ws : List Nat} {f : Link → Link}

theorem Frame.suits (hf : t.Frame t' n ws f) (h : t.Exact)
    (hws : ∀ w ∈ ws, ∃ p id, t.Follows w p id) (hm : m ≠ n)
    (hlive : ∀ id, t.Presents m id → (t.relay.session? id).isSome = true →
      (t'.relay.session? id).isSome = true)
    (hline : t'.relay.lines[m]? = some line) : t'.Suits m line ∧ Arrives (t'.records m) line := by
  rw [hf.lines m hm, Option.map_eq_some_iff] at hline
  obtain ⟨before, hbefore, rfl⟩ := hline
  obtain ⟨hsuits, harrives⟩ := h.suits m before hbefore
  rw [hf.records m hm]
  by_cases hmem : m ∈ ws
  · rw [if_pos hmem]
    refine ⟨?_, harrives.carry rfl (by rw [hf.up])⟩
    obtain ⟨_, _, hasks, -, line, hline, hattendant, -⟩ := hws m hmem
    rw [hline, Option.some.injEq] at hbefore
    subst hbefore
    unfold Suits
    rcases hattendant with hattendant | hattendant <;> rw [hattendant]
    · exact ⟨_, hf.asks hasks⟩
    · trivial
  · rw [if_neg hmem]
    refine ⟨hsuits.carry rfl (hf.heard_prefix m) ?_ (hf.told_eq hm hmem) rfl hlive, harrives⟩
    rw [hf.records m hm]
    exact fun _ => rfl

/-- All is known after an incident if the line and the callers that it is about are known, and
the sessions. -/
theorem Exact.onward (h : t.Exact) (hf : t.Frame t' n ws f)
    (hws : ∀ w ∈ ws, ∃ p id, t.Follows w p id) (hids : ∀ id ∈ t'.relay.ids, id ∈ t.relay.ids)
    (hline : ∃ line, t'.relay.lines[n]? = some line ∧ t'.Suits n line ∧ Arrives (t'.records n) line)
    (hlive : ∀ m id, m ≠ n → t.Presents m id → (t.relay.session? id).isSome = true →
      (t'.relay.session? id).isSome = true)
    (hkeep : ∀ p id, t.Presents p id → t'.Presents p id)
    (hnew : ∀ p id, t'.Presents p id → t.Presents p id ∨
      p = n ∧ id = t.relay.ids.first ∧ id ∉ t'.relay.ids)
    (hfed : t'.Fed n ∧ t.told n <+: t'.told n)
    (hserved : ∀ w ∈ ws, t'.Fed w ∧ t.told w <+: t'.told w)
    (hfollows : ∀ w p id, t.Follows w p id → t'.Follows w p id)
    (hsessions : ∀ id s, t'.relay.session? id = some s → t'.Holds id s) : t.Onward t' := by
  have htold : ∀ m, t'.Fed m ∧ t.told m <+: t'.told m := by
    intro m
    by_cases hmn : m = n
    · exact hmn ▸ hfed
    · by_cases hmem : m ∈ ws
      · exact hserved m hmem
      · have hsame := hf.told_eq hmn hmem
        exact ⟨(h.fed m).carry hf.heard_prefix hsame hkeep, hsame ▸ List.prefix_rfl⟩
  refine ⟨?_, hkeep, hfollows, fun m => (htold m).2⟩
  constructor
  case beyond =>
    intro m hm
    obtain ⟨line, hn, -⟩ := hline
    have hmn : m ≠ n := by
      rintro rfl
      rw [hn] at hm
      cases hm
    rw [hf.records m hmn]
    rw [hf.lines m hmn, Option.map_eq_none_iff] at hm
    exact h.beyond m hm
  case suits =>
    intro m line hm
    by_cases hmn : m = n
    · subst hmn
      obtain ⟨line', hn, hsuits⟩ := hline
      rw [hn, Option.some.injEq] at hm
      exact hm ▸ hsuits
    · exact hf.suits h hws hmn (fun id => hlive m id hmn) hm
  case fed => exact fun m => (htold m).1
  case issued =>
    intro p id hp
    rcases hnew p id hp with hp | ⟨-, -, hgone⟩
    · exact fun hid => h.issued p id hp (hids id hid)
    · exact hgone
  case sole =>
    intro p q id hp hq
    rcases hnew p id hp with hp | ⟨rfl, rfl, -⟩ <;> rcases hnew q _ hq with hq | ⟨rfl, hid, -⟩
    · exact h.sole p q id hp hq
    · exact absurd (hid ▸ hp) h.not_presents_next
    · exact absurd hq h.not_presents_next
    · rfl
  case sessions => exact hsessions

theorem Follows.frame (h : t.Follows w p id) (hf : t.Frame t' n ws f) (hw : w ≠ n) (hws : w ∉ ws)
    (hpresents : t'.Presents p id) (hactions : (t'.records p).actions = (t.records p).actions)
    (hstays : t.Stays t' w id) : t'.Follows w p id := by
  obtain ⟨line, hline, -⟩ := h.2.2
  exact h.carry (hf.asks h.1) hpresents hline ((hf.line_eq hw hws).trans hline) (.refl line)
    (hf.told_eq hw hws) hactions hstays

end Frame

/-- Sessions are as before after an incident that is not about them. -/
theorem Holds.frame {s : Session} (h : t.Holds id s)
    (hplace : ∀ p link, t.relay.lines[p]? = some ⟨link, .presenting id⟩ →
      (∃ link', t'.relay.lines[p]? = some ⟨link', .presenting id⟩) ∧
        (t'.records p).actions = (t.records p).actions)
    (hfollows : ∀ w p id, t.Follows w p id → t'.Follows w p id) : t'.Holds id s := by
  obtain ⟨p, link, hp, hlog, hnodup, hwatchers⟩ := h
  obtain ⟨⟨link', hp'⟩, hactions⟩ := hplace p link hp
  exact ⟨p, link', hp', hlog.trans hactions.symm, hnodup, fun w hw => hfollows w p id (hwatchers w hw)⟩

/-- An incident that is about no session. -/
theorem Exact.steady (h : t.Exact) {f : Link → Link} (hf : t.Frame t' n [] f)
    (hsessions : t'.relay.sessions = t.relay.sessions)
    (hids : ∀ id ∈ t'.relay.ids, id ∈ t.relay.ids) (htold : t'.told n = t.told n)
    (hactions : ∀ id, t.Presents n id → (t'.records n).actions = (t.records n).actions)
    {line' : Line} (hline' : t'.relay.lines[n]? = some line') (hsuits : t'.Suits n line')
    (harrives : Arrives (t'.records n) line')
    (hlasts : ∀ line, t.relay.lines[n]? = some line →
      Lasts line line' ∧ ∀ id, line.attendant = .presenting id → line'.attendant = .presenting id) :
    t.Onward t' := by
  have hall : ∀ m, t'.told m = t.told m := by
    intro m
    by_cases hm : m = n
    · exact hm ▸ htold
    · exact hf.told_eq hm List.not_mem_nil
  have hsession := Relay.session?_congr hsessions
  have hpresents : ∀ p id, t'.Presents p id ↔ t.Presents p id :=
    fun p id => h.presents_iff (hf.heard_prefix p) (Or.inl (hall p))
  have hkept : ∀ p id, t.Presents p id → (t'.records p).actions = (t.records p).actions := by
    intro p id hp
    by_cases hpn : p = n
    · subst hpn
      exact hactions id hp
    · rw [hf.records p hpn]
  have hfollows : ∀ w p id, t.Follows w p id → t'.Follows w p id := by
    intro w p i hw
    have hpi := hw.2.1
    by_cases hwn : w = n
    · subst hwn
      obtain ⟨line, hline, -⟩ := hw.2.2
      exact hw.carry (hf.asks hw.1) ((hpresents p i).mpr hpi) hline hline' (hlasts line hline).1
        htold (hkept p i hpi) (.of_eq (hsession i))
    · exact hw.frame hf hwn List.not_mem_nil ((hpresents p i).mpr hpi) (hkept p i hpi)
        (.of_eq (hsession i))
  refine h.onward hf (by simp) hids ⟨line', hline', hsuits, harrives⟩ ?_
    (fun p id => (hpresents p id).mpr) (fun p id hp => Or.inl ((hpresents p id).mp hp))
    ⟨(h.fed n).carry hf.heard_prefix htold fun p id => (hpresents p id).mpr,
      htold ▸ List.prefix_rfl⟩ (by simp) hfollows ?_
  · intro m id _ _ hlive
    rw [hsession]
    exact hlive
  · intro i s hs
    rw [hsession] at hs
    refine (h.sessions i s hs).frame ?_ hfollows
    intro p link hp
    refine ⟨?_, hkept p i ((h.suits p _ hp).1).1⟩
    by_cases hpn : p = n
    · subst hpn
      have hsame := (hlasts _ hp).2 i rfl
      exact ⟨line'.link, hline'.trans (by rw [← hsame])⟩
    · exact ⟨link, (hf.line_eq hpn List.not_mem_nil).trans hp⟩

/-! ## Callers -/

theorem Exact.call (h : t.Exact) : t.Onward (t.step .call) := by
  have hnone : t.relay.lines[t.relay.lines.length]? = none :=
    List.getElem?_eq_none_iff.mpr (Nat.le_refl _)
  have hempty := h.beyond _ hnone
  have hnew : (t.step .call).relay.lines[t.relay.lines.length]? = some ⟨.fresh, .greeting⟩ :=
    List.getElem?_concat_length
  have hrecords : (t.step .call).records = t.records := rfl
  have hbefore : t.told t.relay.lines.length = [] := by
    simp [told, Relay.link?, hempty, Record.empty]
  have htold : (t.step .call).told t.relay.lines.length = [] := by
    simp [told_of_line hnew, hrecords, hempty, Record.empty, Link.fresh, Pipe.fresh]
  have hf : t.Frame (t.step .call) t.relay.lines.length [] fun link => link := by
    refine ⟨fun _ _ => rfl, List.prefix_rfl, ?_, fun _ => rfl⟩
    intro m hm
    have hline : (t.step .call).relay.lines[m]? = t.relay.lines[m]? := by
      rcases Nat.lt_or_gt_of_ne hm with hlt | hgt
      · exact List.getElem?_append_left hlt
      · rw [List.getElem?_eq_none_iff.mpr (Nat.le_of_lt hgt), List.getElem?_eq_none_iff]
        simp [step, Relay.connect]
        omega
    simp [hline]
  refine h.steady hf rfl (fun _ hid => hid) (htold.trans hbefore.symm) (fun _ _ => rfl) hnew ?_ ?_ ?_
  · exact ⟨congrArg Record.heard hempty, htold, rfl⟩
  · rw [hrecords, hempty]
    exact ⟨List.prefix_rfl, fun _ => rfl⟩
  · intro line hline
    rw [hnone] at hline
    cases hline

theorem Exact.caller (h : t.Exact) (n : Nat) (d : Doing) : t.Onward (t.step (.caller n d)) := by
  cases hline : t.relay.lines[n]? with
  | none =>
    rw [step_caller_none hline]
    exact .refl h
  | some line =>
    obtain ⟨hup, hdown, hsender, hopen⟩ := line.link.near_spec d
    obtain ⟨hsuits, harrives⟩ := h.suits n line hline
    generalize hstep : t.step (.caller n d) = t'
    obtain ⟨hrelay, hrecord, hothers⟩ := step_caller hline hstep
    have hself : t'.relay.lines[n]? = some ⟨line.link.near d, line.attendant⟩ := by
      rw [hrelay]
      exact Relay.getElem?_onLink_self hline _
    have htold : t'.told n = t.told n := by
      rw [told_of_line hself, told_of_line hline, hrecord, hdown]
      simp
    refine h.steady (f := fun link => link) ⟨hothers, ?_, ?_, fun _ => rfl⟩
      (by rw [hrelay, Relay.sessions_onLink]) (by simp [hrelay]) htold ?_
      hself ?_ ?_ ?_
    · simp [hrecord]
    · intro m hm
      simp [hrelay, Relay.getElem?_onLink_ne _ hm]
    · intro _ _
      rw [hrecord]
      rfl
    · refine hsuits.carry rfl ?_ ?_ htold hsender ?_
      · simp [hrecord]
      · rw [hrecord]
        exact fun _ => rfl
      · rw [hrelay]
        exact fun _ _ hlive => hlive
    · rw [hrecord]
      refine ⟨harrives.heard.trans (List.prefix_append _ _), ?_⟩
      intro hgone
      simp [harrives.waiting hgone, hup]
    · intro before hbefore
      rw [hline, Option.some.injEq] at hbefore
      subst hbefore
      exact ⟨fun hattendant => ⟨hattendant, fun h => ⟨hopen h, hsender⟩⟩, fun _ => id⟩

/-! ## Attendants -/

section Deals

variable {link link' : Link} {attendant : Attendant} {text : String} {rest : List String}

theorem Deals.heard_prefix (hd : t.Deals t' n line) :
    (t.records n).heard <+: (t'.records n).heard := by
  rw [hd.record]
  exact List.prefix_append _ _

theorem Deals.frame (hd : t.Deals t' n line) (htouches : t.relay.Touches t'.relay n) :
    t.Frame t' n [] fun link => link := by
  refine ⟨hd.others, hd.heard_prefix, ?_, fun _ => rfl⟩
  intro m hm
  simp [htouches.others m hm]

theorem Deals.told (hd : t.Deals t' n line) {line' : Line} (hline' : t'.relay.lines[n]? = some line') :
    t'.told n = (t.records n).got ++ line'.link.down.waiting := by
  rw [told_of_line hline', hd.record]

theorem Deals.arrives (hd : t.Deals t' n line) (h : Arrives (t.records n) line) {line' : Line}
    (hgone : line.attendant ≠ .gone)
    (hwaiting : line'.attendant ≠ .gone → line.link.up.waiting =
      line.link.up.waiting.take 1 ++ line'.link.up.waiting) : Arrives (t'.records n) line' := by
  have hsaid := h.waiting hgone
  rw [hd.record]
  refine ⟨?_, fun hstays => ?_⟩
  · rw [hsaid]
    exact (List.prefix_append_right_inj _).mpr (List.take_prefix 1 _)
  · rw [hsaid, List.append_assoc, ← hwaiting hstays]

/-- A message that passes nothing on is of no consequence. -/
theorem Exact.skips (h : t.Exact) (hd : t.Deals t' n ⟨link, attendant⟩)
    (hwaiting : link.up.waiting = text :: rest)
    (hskip : attendant = .watching ∨ (∃ id, attendant = .presenting id) ∧ passedAction? text = none)
    (hrelay : t'.relay = t.relay.onLink n fun _ => link.heard rest) : t.Onward t' := by
  obtain ⟨hsuits, harrives⟩ := h.suits n _ hd.before
  have hself : t'.relay.lines[n]? = some ⟨link.heard rest, attendant⟩ := by
    rw [hrelay]
    exact Relay.getElem?_onLink_self hd.before _
  have htold : t'.told n = t.told n := by
    rw [hd.told hself, told_of_line hd.before]
    rfl
  have hf := hd.frame (by rw [hrelay]; exact Relay.touches_onLink _ n _)
  have hne : attendant ≠ .greeting ∧ attendant ≠ .gone := by
    rcases hskip with rfl | ⟨⟨id, rfl⟩, -⟩ <;> simp
  refine h.steady hf (by rw [hrelay, Relay.sessions_onLink]) (by simp [hrelay])
    htold ?_ hself ?_ ?_ ?_
  · intro id hpresents
    rcases hskip with rfl | ⟨-, hnone⟩
    · obtain ⟨id', hasks⟩ := hsuits
      exact absurd hpresents hasks.not_presents
    · have hheard : (t'.records n).heard = (t.records n).heard ++ [text] := by
        simp [hd.record, hwaiting]
      simp [Record.actions_snoc hpresents.1 hheard, hnone]
  · refine hsuits.carry rfl hd.heard_prefix (fun hgreeting => absurd hgreeting hne.1) htold rfl ?_
    rw [hrelay]
    exact fun _ _ hlive => hlive
  · exact hd.arrives harrives hne.2 fun _ => by simp [hwaiting, Link.heard]
  · intro before hbefore
    rw [hd.before, Option.some.injEq] at hbefore
    subst hbefore
    exact ⟨fun hattendant => ⟨hattendant, fun hopen => ⟨hopen, rfl⟩⟩, fun _ hp => hp⟩

theorem Suits.not_presents (h : t.Suits n line)
    (hattendant : line.attendant = .greeting ∨ line.attendant = .watching) : ¬ t.Presents n id := by
  intro hpresents
  unfold Suits at h
  rcases hattendant with hattendant | hattendant <;> rw [hattendant] at h
  · have htold := hpresents.2
    rw [h.2.1] at htold
    cases htold
  · obtain ⟨_, hasks⟩ := h
    exact hasks.not_presents hpresents

/-- An attendant that leaves a line without a session is of no consequence. -/
theorem Exact.leaves (h : t.Exact) (hd : t.Deals t' n ⟨link, attendant⟩)
    (hattendant : attendant = .greeting ∨ attendant = .watching)
    (htouches : t.relay.Touches t'.relay n) (hsessions : t'.relay.sessions = t.relay.sessions)
    (hids : ∀ id ∈ t'.relay.ids, id ∈ t.relay.ids)
    (hline' : t'.relay.lines[n]? = some ⟨link', .gone⟩)
    (hwaiting : link'.down.waiting = link.down.waiting) (hopen : link'.down.isOpen = link.down.isOpen)
    (hsender : attendant = .watching → link'.down.hasSender = link.down.hasSender) : t.Onward t' := by
  obtain ⟨hsuits, harrives⟩ := h.suits n _ hd.before
  have htold : t'.told n = t.told n := by
    rw [hd.told hline', told_of_line hd.before, hwaiting]
  refine h.steady (hd.frame htouches) hsessions hids htold ?_ hline' trivial ?_ ?_
  · intro id hpresents
    exact absurd hpresents (hsuits.not_presents hattendant)
  · refine hd.arrives harrives ?_ fun hstays => absurd rfl hstays
    rcases hattendant with rfl | rfl <;> simp
  · intro before hbefore
    rw [hd.before, Option.some.injEq] at hbefore
    subst hbefore
    refine ⟨fun hfollows => ⟨Or.inr rfl, fun hopen' => ⟨hopen ▸ hopen', ?_⟩⟩, ?_⟩
    · rcases hattendant with rfl | rfl
      · simp at hfollows
      · exact hsender rfl
    · rintro id rfl
      simp at hattendant

end Deals

end Traffic

end TurtleScript
