-- What the relay does to its lines. A step of an attendant changes its own
-- line, and the far ends of the lines of those who watch; the rest stays.
import TurtleScript.Sharing.Relay

namespace TurtleScript

/-! ## Links -/

theorem Link.up_send_far (l : Link) (text : String) : (l.send .far text).up = l.up := by
  unfold send send?
  cases (l.outgoing .far).send? text <;> rfl

theorem Link.down_send_far {l : Link} (h : l.down.takesMore = true) (text : String) :
    (l.send .far text).down = { l.down with waiting := l.down.waiting ++ [text] } := by
  simp [send, send?, outgoing, Pipe.send?, h, withOutgoing]

/-- Messages that could all be sent have been put behind those on their way. -/
theorem Link.foldlM_send?_far {texts : List String} {l m : Link}
    (h : texts.foldlM (fun l text => l.send? .far text) l = some m) :
    m.up = l.up ∧ m.down = { l.down with waiting := l.down.waiting ++ texts } := by
  induction texts generalizing l with
  | nil =>
    simp only [List.foldlM_nil, Option.pure_def, Option.some.injEq] at h
    simp [h]
  | cons text texts ih =>
    rw [List.foldlM_cons, Option.bind_eq_bind, Option.bind_eq_some_iff] at h
    obtain ⟨next, hnext, hm⟩ := h
    unfold send? outgoing Pipe.send? at hnext
    by_cases hmore : l.down.takesMore = true
    · simp only [hmore, if_true, Option.map_some, withOutgoing, Option.some.injEq] at hnext
      obtain ⟨hup, hdown⟩ := ih hm
      subst hnext
      refine ⟨hup, ?_⟩
      rw [hdown]
      simp
    · simp [hmore] at hnext

/-- Messages can be sent to a near end that listens. -/
theorem Link.exists_foldlM_send?_far (texts : List String) {l : Link}
    (h : l.down.takesMore = true) :
    ∃ m, texts.foldlM (fun l text => l.send? .far text) l = some m := by
  induction texts generalizing l with
  | nil => exact ⟨l, rfl⟩
  | cons text texts ih =>
    have hsend : l.send? .far text =
        some { l with down := { l.down with waiting := l.down.waiting ++ [text] } } := by
      simp [send?, outgoing, Pipe.send?, h, withOutgoing]
    obtain ⟨m, hm⟩ := ih (l := { l with down := { l.down with waiting := l.down.waiting ++ [text] } }) h
    refine ⟨m, ?_⟩
    rw [List.foldlM_cons, hsend]
    exact hm

namespace Relay

/-! ## One line -/

theorem getElem?_onLink_self {r : Relay} {n : Nat} {line : Line} (h : r.lines[n]? = some line)
    (f : Link → Link) : (r.onLink n f).lines[n]? = some ⟨f line.link, line.attendant⟩ := by
  unfold onLink
  rw [List.getElem?_modify, h]
  simp

theorem getElem?_onLink_ne (r : Relay) {n m : Nat} (h : m ≠ n) (f : Link → Link) :
    (r.onLink n f).lines[m]? = r.lines[m]? := by
  unfold onLink
  rw [List.getElem?_modify]
  simp [Ne.symm h]

theorem getElem?_assign_self {r : Relay} {n : Nat} {line : Line} (h : r.lines[n]? = some line)
    (attendant : Attendant) : (r.assign n attendant).lines[n]? = some ⟨line.link, attendant⟩ := by
  unfold assign
  rw [List.getElem?_modify, h]
  simp

theorem getElem?_assign_ne (r : Relay) {n m : Nat} (h : m ≠ n) (attendant : Attendant) :
    (r.assign n attendant).lines[m]? = r.lines[m]? := by
  unfold assign
  rw [List.getElem?_modify]
  simp [Ne.symm h]

@[simp] theorem length_onLink (r : Relay) (n : Nat) (f : Link → Link) :
    (r.onLink n f).lines.length = r.lines.length := List.length_modify ..

@[simp] theorem length_assign (r : Relay) (n : Nat) (attendant : Attendant) :
    (r.assign n attendant).lines.length = r.lines.length := List.length_modify ..

@[simp] theorem sessions_onLink (r : Relay) (n : Nat) (f : Link → Link) :
    (r.onLink n f).sessions = r.sessions := rfl

@[simp] theorem ids_onLink (r : Relay) (n : Nat) (f : Link → Link) :
    (r.onLink n f).ids = r.ids := rfl

theorem reaches_onLink_ne (r : Relay) {n m : Nat} (h : m ≠ n) (f : Link → Link) :
    (r.onLink n f).reaches m = r.reaches m := by
  unfold reaches link?
  rw [getElem?_onLink_ne r h]

theorem filter_reaches_onLink (r : Relay) {n : Nat} {ws : List Nat} (h : n ∉ ws) (f : Link → Link) :
    ws.filter (r.onLink n f).reaches = ws.filter r.reaches := by
  apply List.filter_congr
  intro m hm
  have hmn : m ≠ n := by
    rintro rfl
    exact h hm
  exact reaches_onLink_ne r hmn f

/-- Only one line is different. -/
structure Touches (r s : Relay) (n : Nat) : Prop where
  length : s.lines.length = r.lines.length
  others : ∀ m, m ≠ n → s.lines[m]? = r.lines[m]?

theorem touches_onLink (r : Relay) (n : Nat) (f : Link → Link) : r.Touches (r.onLink n f) n :=
  ⟨length_onLink r n f, fun _ hm => getElem?_onLink_ne r hm f⟩

theorem touches_assign (r : Relay) (n : Nat) (attendant : Attendant) :
    r.Touches (r.assign n attendant) n :=
  ⟨length_assign r n attendant, fun _ hm => getElem?_assign_ne r hm attendant⟩

theorem Touches.trans {r s t : Relay} {n : Nat} (hs : r.Touches s n) (ht : s.Touches t n) :
    r.Touches t n := by
  refine ⟨by rw [ht.length, hs.length], ?_⟩
  intro m hm
  rw [ht.others m hm, hs.others m hm]

theorem touches_leave (r : Relay) (n : Nat) : r.Touches (r.leave n) n :=
  (touches_onLink r n _).trans (touches_assign _ n _)

theorem getElem?_leave_self {r : Relay} {n : Nat} {line : Line} (h : r.lines[n]? = some line) :
    (r.leave n).lines[n]? = some ⟨line.link.leave .far, .gone⟩ :=
  getElem?_assign_self (getElem?_onLink_self h _) _

/-! ## Several lines -/

/-- Changing the links of several lines changes each of them once. -/
theorem getElem?_foldl_onLink (f : Link → Link) {ws : List Nat} (hws : ws.Nodup) (r : Relay)
    (m : Nat) :
    (ws.foldl (fun r n => r.onLink n f) r).lines[m]? =
      r.lines[m]?.map fun line => if m ∈ ws then ⟨f line.link, line.attendant⟩ else line := by
  induction ws generalizing r with
  | nil => simp
  | cons n ws ih =>
    obtain ⟨hn, hrest⟩ := List.nodup_cons.mp hws
    rw [List.foldl_cons, ih hrest]
    by_cases hm : m = n
    · subst hm
      cases hline : r.lines[m]? with
      | none =>
        have hnone : (r.onLink m f).lines[m]? = none := by
          rw [List.getElem?_eq_none_iff, length_onLink]
          exact List.getElem?_eq_none_iff.mp hline
        rw [hnone]
        rfl
      | some line =>
        rw [getElem?_onLink_self hline]
        simp [hn]
    · rw [getElem?_onLink_ne r hm]
      simp [hm]

theorem length_foldl_onLink (f : Link → Link) (ws : List Nat) (r : Relay) :
    (ws.foldl (fun r n => r.onLink n f) r).lines.length = r.lines.length := by
  induction ws generalizing r with
  | nil => rfl
  | cons n ws ih => rw [List.foldl_cons, ih, length_onLink]

theorem sessions_foldl_onLink (f : Link → Link) (ws : List Nat) (r : Relay) :
    (ws.foldl (fun r n => r.onLink n f) r).sessions = r.sessions := by
  induction ws generalizing r with
  | nil => rfl
  | cons n ws ih => rw [List.foldl_cons, ih, sessions_onLink]

theorem ids_foldl_onLink (f : Link → Link) (ws : List Nat) (r : Relay) :
    (ws.foldl (fun r n => r.onLink n f) r).ids = r.ids := by
  induction ws generalizing r with
  | nil => rfl
  | cons n ws ih => rw [List.foldl_cons, ih, ids_onLink]

/-- The far ends of some lines have been used in a certain way; otherwise all lines are as they
were. -/
structure Serves (r s : Relay) (ws : List Nat) (f : Link → Link) : Prop where
  length : s.lines.length = r.lines.length
  lines : ∀ m, s.lines[m]? =
    r.lines[m]?.map fun line => if m ∈ ws then ⟨f line.link, line.attendant⟩ else line

theorem serves_foldl_onLink (f : Link → Link) {ws : List Nat} (hws : ws.Nodup) (r : Relay) :
    r.Serves (ws.foldl (fun r n => r.onLink n f) r) ws f :=
  ⟨length_foldl_onLink f ws r, getElem?_foldl_onLink f hws r⟩

/-! ## Sessions -/

section Session

variable {r : Relay} {id : String} {s : Session}

theorem session?_of_sessions (h : r.sessions = [(id, s)]) : r.session? id = some s := by
  simp [session?, h]

theorem session?_eq_some (h : r.sessions = [(id, s)]) {i : String} {t : Session}
    (ht : r.session? i = some t) : i = id ∧ t = s := by
  simp only [session?, h, List.find?_cons, List.find?_nil] at ht
  by_cases hi : id = i
  · simp only [hi, decide_true, Option.map_some, Option.some.injEq] at ht
    exact ⟨hi.symm, ht.symm⟩
  · simp [hi] at ht

theorem session?_congr {t : Relay} (h : t.sessions = r.sessions) (i : String) :
    t.session? i = r.session? i := by
  unfold session?
  rw [h]

/-- Changing the session of an id leaves the sessions of all other ids alone. -/
theorem session?_onSession (r : Relay) (id : String) (f : Session → Session) (i : String) :
    (r.onSession id f).session? i = if i = id then (r.session? i).map f else r.session? i := by
  unfold session? onSession
  induction r.sessions with
  | nil => simp
  | cons first sessions ih =>
    simp only [List.map_cons, List.find?_cons]
    by_cases hi : first.1 = i
    · by_cases hid : i = id <;> simp [hi, hid]
    · simp only [hi, decide_false]
      exact ih

theorem session?_snoc {t : Relay} (h : t.sessions = r.sessions ++ [(id, s)])
    (hnew : r.session? id = none) (i : String) :
    t.session? i = if i = id then some s else r.session? i := by
  unfold session? at hnew ⊢
  rw [h, List.find?_append]
  by_cases hi : i = id
  · rw [hi, Option.map_eq_none_iff.mp hnew]
    simp
  · simp [hi, Ne.symm hi]

theorem session?_filter {t : Relay} (h : t.sessions = r.sessions.filter (·.1 ≠ id)) (i : String) :
    t.session? i = if i = id then none else r.session? i := by
  unfold session?
  rw [h]
  induction r.sessions with
  | nil => simp
  | cons first sessions ih =>
    by_cases hfirst : first.1 = id
    · rw [List.filter_cons_of_neg (by simp [hfirst]), ih]
      by_cases hi : i = id
      · simp [hi]
      · simp [hi, hfirst, Ne.symm hi]
    · rw [List.filter_cons_of_pos (by simp [hfirst]), List.find?_cons, List.find?_cons]
      by_cases hi : first.1 = i
      · have hne : i ≠ id := hi ▸ hfirst
        simp [hi, hne]
      · simp only [hi, decide_false]
        exact ih

/-- Every watcher that can be reached is sent the action, and the action is kept. -/
theorem publish_spec (h : r.session? id = some s) (hws : s.watchers.Nodup) (action : String) :
    (r.publish id action).sessions =
        (r.onSession id fun s' => ⟨s'.log ++ [action], s.watchers.filter r.reaches⟩).sessions ∧
      (r.publish id action).ids = r.ids ∧
      r.Serves (r.publish id action) (s.watchers.filter r.reaches) (·.send .far action) := by
  have hserves := serves_foldl_onLink (·.send .far action) (hws.filter r.reaches) r
  unfold publish
  rw [h]
  simp only
  refine ⟨?_, ids_foldl_onLink .., hserves.length, hserves.lines⟩
  unfold onSession
  rw [sessions_foldl_onLink]

/-- The watchers of a session that ends are told nothing more. -/
theorem closeSession_spec (h : r.session? id = some s) (hws : s.watchers.Nodup) :
    (r.closeSession id).sessions = r.sessions.filter (·.1 ≠ id) ∧
      (r.closeSession id).ids = r.ids ∧
      r.Serves (r.closeSession id) s.watchers (·.hangUp .far) := by
  have hserves := serves_foldl_onLink (·.hangUp .far) hws
    { r with sessions := r.sessions.filter (·.1 ≠ id) }
  unfold closeSession
  rw [h]
  simp only
  refine ⟨?_, ids_foldl_onLink .., hserves.length, hserves.lines⟩
  rw [sessions_foldl_onLink]

end Session

end Relay

end TurtleScript
