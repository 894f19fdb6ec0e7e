-- One step of an attendant: what it can be, whatever has come over the line,
-- and what it is by the line. A presenter's call is answered or comes to
-- nothing, what a presenter passes on is published, and a watcher's call is
-- led into a session or ends.
import TurtleScript.Proofs.Sharing.Lines
import TurtleScript.Proofs.Sharing.Wording

namespace TurtleScript

/-- A link of which the far end has received one message, so that these are left. -/
def Link.heard (l : Link) (rest : List String) : Link := { l with up := { l.up with waiting := rest } }

theorem Link.receive_far_cons {l : Link} {text : String} {rest : List String}
    (h : l.up.waiting = text :: rest) : l.receive .far = .message text (l.heard rest) := by
  simp [receive, incoming, Pipe.receive, h, Reception.map, withIncoming, heard]

theorem Link.receive_far_nil {l : Link} (h : l.up.waiting = []) :
    l.receive .far = if l.up.takesMore then .nothing else .ended := by
  unfold receive incoming Pipe.receive
  rw [h]
  cases l.up.takesMore <;> rfl

namespace Relay

section Attend

variable {r r' : Relay} {n : Nat} {link : Link} {attendant : Attendant} {text : String}
  {rest : List String}

/-! ## What an attendant gets -/

theorem attend_message (hline : r.lines[n]? = some ⟨link, attendant⟩)
    (hgone : attendant ≠ .gone) (hout : ∀ s, attendant ≠ .outsider s)
    (h : link.up.waiting = text :: rest) :
    r.attend n =
      some ((r.onLink n fun _ => link.heard rest).handle n (link.heard rest) text attendant) := by
  unfold attend
  rw [hline]
  cases attendant with
  | gone => exact absurd rfl hgone
  | outsider s => exact absurd rfl (hout s)
  | _ => simp only [Link.receive_far_cons h]

theorem attend_silence (hline : r.lines[n]? = some ⟨link, attendant⟩)
    (hgone : attendant ≠ .gone) (hout : ∀ s, attendant ≠ .outsider s) (h : link.up.waiting = []) :
    r.attend n = if link.up.takesMore then none else some (r.finish n attendant) := by
  unfold attend
  rw [hline]
  cases attendant with
  | gone => exact absurd rfl hgone
  | outsider s => exact absurd rfl (hout s)
  | _ =>
    simp only [Link.receive_far_nil h]
    cases link.up.takesMore <;> rfl

/-! ## What attendants do -/

/-- What an attendant can do: it opens a session, lets a watcher in, hands an action on, ends a
session, passes a message over, refuses a caller or leaves a watcher that sends no more. -/
inductive Attends (r : Relay) (n : Nat) (link : Link) (r' : Relay) : Attendant → Prop
  | opens (text : String) (link' : Link) :
      link.up.waiting = text :: link'.up.waiting → Message.relayed? text = some .startSharing →
      r.Touches r' n → r'.sessions = r.sessions ++ [(r.ids.first, ⟨[], []⟩)] →
      r'.ids = r.ids.rest → r'.lines[n]? = some ⟨link', .presenting r.ids.first⟩ →
      link'.down.waiting = link.down.waiting ++ [assignedText r.ids.first] →
      Attends r n link r' .greeting
  | joins (text id : String) (s : Session) (link' : Link) :
      link.up.waiting = text :: link'.up.waiting →
      Message.relayed? text = some (.startWatching id) → r.session? id = some s →
      r.Touches r' n →
      r'.sessions = (r.onSession id fun s => { s with watchers := s.watchers ++ [n] }).sessions →
      r'.ids = r.ids → r'.lines[n]? = some ⟨link', .watching⟩ →
      link'.down = { link.down with waiting := link.down.waiting ++ s.log } →
      Attends r n link r' .greeting
  | passes (id text action : String) (rest : List String) :
      link.up.waiting = text :: rest → passedAction? text = some action →
      r' = (r.onLink n fun _ => link.heard rest).publish id action →
      Attends r n link r' (.presenting id)
  | ends (id : String) : link.up.waiting = [] → r' = (r.closeSession id).leave n →
      Attends r n link r' (.presenting id)
  | skips (attendant : Attendant) (text : String) (rest : List String) :
      link.up.waiting = text :: rest →
      attendant = .watching ∨ (∃ id, attendant = .presenting id) ∧ passedAction? text = none →
      r' = (r.onLink n fun _ => link.heard rest) → Attends r n link r' attendant
  | refuses (link' : Link) : r.Touches r' n → r'.sessions = r.sessions → (∀ id ∈ r'.ids, id ∈ r.ids) →
      r'.lines[n]? = some ⟨link', .gone⟩ → link'.down = link.down.hangUp →
      Attends r n link r' .greeting
  | leaves (link' : Link) : r.Touches r' n → r'.sessions = r.sessions → (∀ id ∈ r'.ids, id ∈ r.ids) →
      r'.lines[n]? = some ⟨link', .gone⟩ → link'.down = link.down → Attends r n link r' .watching

theorem handle_presenting (r : Relay) (n : Nat) (link : Link) (text id : String) :
    r.handle n link text (.presenting id) =
      match passedAction? text with
      | some action => r.publish id action
      | none => r := by
  unfold handle passedAction?
  rcases Message.relayed? text with _ | _ | _ | _ <;> rfl

/-- A caller is refused by leaving its line, whatever it has said. -/
theorem attends_refuse {link' : Link} (htouches : r.Touches r' n) (hsessions : r'.sessions = r.sessions)
    (hids : ∀ id ∈ r'.ids, id ∈ r.ids) (hline : r'.lines[n]? = some ⟨link', .greeting⟩)
    (hdown : link'.down = link.down) : r.Attends n link (r'.leave n) .greeting :=
  .refuses (link'.leave .far) (htouches.trans (touches_leave r' n)) hsessions hids
    (getElem?_leave_self hline) (by rw [← hdown]; rfl)

theorem attends_openSession (hline : r.lines[n]? = some ⟨link, .greeting⟩)
    (h : link.up.waiting = text :: rest) (htext : Message.relayed? text = some .startSharing) :
    r.Attends n link ((r.onLink n fun _ => link.heard rest).openSession n (link.heard rest))
      .greeting := by
  have hself : (r.onLink n fun _ => link.heard rest).lines[n]? = some ⟨link.heard rest, .greeting⟩ :=
    getElem?_onLink_self hline _
  have hfirst := touches_onLink r n fun _ => link.heard rest
  unfold openSession
  simp only [ids_onLink]
  cases hsend : (link.heard rest).send? .far (assignedText r.ids.first) with
  | none =>
    exact attends_refuse (hfirst.trans ⟨rfl, fun _ _ => rfl⟩) rfl
      (fun _ => SessionIds.mem_of_mem_rest) hself rfl
  | some sent =>
    have hall : [assignedText r.ids.first].foldlM (fun l text => l.send? .far text)
        (link.heard rest) = some sent := by simp [hsend]
    obtain ⟨hup, hdown⟩ := Link.foldlM_send?_far hall
    let s : Relay := { r.onLink n fun _ => link.heard rest with
      sessions := r.sessions ++ [(r.ids.first, ⟨[], []⟩)], ids := r.ids.rest }
    have hs : r.Touches s n := ⟨hfirst.length, hfirst.others⟩
    refine .opens text (sent.hangUp .far) ?_ htext ?_ rfl rfl ?_ ?_
    · rw [h]
      exact congrArg (text :: ·.waiting) hup.symm
    · exact hs.trans ((touches_onLink s n _).trans (touches_assign _ n _))
    · exact getElem?_assign_self (getElem?_onLink_self (r := s) hself _) _
    · exact congrArg Pipe.waiting hdown

theorem attends_join {id : String} (hline : r.lines[n]? = some ⟨link, .greeting⟩)
    (h : link.up.waiting = text :: rest)
    (htext : Message.relayed? text = some (.startWatching id)) :
    r.Attends n link ((r.onLink n fun _ => link.heard rest).join n (link.heard rest) id) .greeting := by
  have hself : (r.onLink n fun _ => link.heard rest).lines[n]? = some ⟨link.heard rest, .greeting⟩ :=
    getElem?_onLink_self hline _
  have hfirst := touches_onLink r n fun _ => link.heard rest
  have hleave : r.Attends n link ((r.onLink n fun _ => link.heard rest).leave n) .greeting :=
    attends_refuse hfirst rfl (fun _ hid => hid) hself rfl
  unfold join
  cases hsession : (r.onLink n fun _ => link.heard rest).session? id with
  | none => exact hleave
  | some s =>
    simp only
    cases hsent : s.log.foldlM (fun link action => link.send? .far action) (link.heard rest) with
    | none => exact hleave
    | some sent =>
      obtain ⟨hup, hdown⟩ := Link.foldlM_send?_far hsent
      refine .joins text id s sent ?_ htext hsession ?_ rfl rfl ?_ hdown
      · rw [h]
        exact congrArg (text :: ·.waiting) hup.symm
      · have hsecond := (touches_onLink (r.onLink n fun _ => link.heard rest) n fun _ => sent).trans
          (touches_assign _ n .watching)
        exact hfirst.trans ⟨hsecond.length, hsecond.others⟩
      · exact getElem?_assign_self (getElem?_onLink_self hself _) _

theorem exists_line_of_attend (h : r.attend n = some r') : ∃ line, r.lines[n]? = some line := by
  cases hline : r.lines[n]? with
  | none => simp [attend, hline] at h
  | some line => exact ⟨line, rfl⟩

/-- Nothing else ever happens on a line. -/
theorem attends_of_attend (hline : r.lines[n]? = some ⟨link, attendant⟩)
    (h : r.attend n = some r') : r.Attends n link r' attendant := by
  have hgone : attendant ≠ .gone := by
    rintro rfl
    simp [attend, hline] at h
  have hout : ∀ s, attendant ≠ .outsider s := by
    rintro s rfl
    simp [attend, hline] at h
  cases hwaiting : link.up.waiting with
  | nil =>
    rw [attend_silence hline hgone hout hwaiting] at h
    split at h
    · cases h
    simp only [Option.some.injEq] at h
    subst h
    cases attendant with
    | greeting => exact attends_refuse ⟨rfl, fun _ _ => rfl⟩ rfl (fun _ hid => hid) hline rfl
    | presenting id => exact .ends id hwaiting rfl
    | watching =>
      exact .leaves (link.abandon .far) ((touches_onLink r n _).trans (touches_assign _ n _)) rfl
        (fun _ hid => hid) (getElem?_assign_self (getElem?_onLink_self hline _) _) rfl
    | gone => exact absurd rfl hgone
    | outsider s => exact absurd rfl (hout s)
  | cons text rest =>
    rw [attend_message hline hgone hout hwaiting, Option.some.injEq] at h
    subst h
    have hself := getElem?_onLink_self hline fun _ => link.heard rest
    have hfirst := touches_onLink r n fun _ => link.heard rest
    cases attendant with
    | greeting =>
      have hleave : r.Attends n link ((r.onLink n fun _ => link.heard rest).leave n) .greeting :=
        attends_refuse hfirst rfl (fun _ hid => hid) hself rfl
      cases htext : Message.relayed? text with
      | none => simpa [handle, htext] using hleave
      | some message =>
        cases message with
        | startSharing => simpa [handle, htext] using attends_openSession hline hwaiting htext
        | startWatching id => simpa [handle, htext] using attends_join hline hwaiting htext
        | newAction action => simpa [handle, htext] using hleave
    | presenting id =>
      rw [handle_presenting]
      cases haction : passedAction? text with
      | none => exact .skips (.presenting id) text rest hwaiting (Or.inr ⟨⟨id, rfl⟩, haction⟩) rfl
      | some action => exact .passes id text action rest hwaiting haction rfl
    | watching => exact .skips .watching text rest hwaiting (Or.inl rfl) rfl
    | gone => exact absurd rfl hgone
    | outsider s => exact absurd rfl (hout s)

/-! ## The call of a presenter -/

/-- The text by which a presenter calls. -/
def startText : String := (Message.startSharing : Message Action).text

theorem attend_start (hline : r.lines[n]? = some ⟨link, .greeting⟩)
    (h : link.up.waiting = [startText]) :
    r.attend n = some ((r.onLink n fun _ => link.heard []).openSession n (link.heard [])) := by
  rw [attend_message hline (by simp) (by simp) h]
  unfold handle startText
  rw [relayed?_startSharing]

/-- A presenter that still listens gets the id of its session, and nothing after it. -/
theorem attend_start_answered (hline : r.lines[n]? = some ⟨link, .greeting⟩)
    (h : link.up.waiting = [startText]) (hdown : link.down = .fresh) :
    ∃ r', r.attend n = some r' ∧ r.Touches r' n ∧
      r'.sessions = r.sessions ++ [(r.ids.first, ⟨[], []⟩)] ∧
      r'.lines[n]? = some ⟨⟨{ link.up with waiting := [] },
        ⟨[assignedText r.ids.first], false, true⟩⟩, .presenting r.ids.first⟩ := by
  refine ⟨_, attend_start hline h, ?_⟩
  have hsend : (link.heard []).send? .far (assignedText r.ids.first) =
      some ⟨{ link.up with waiting := [] }, ⟨[assignedText r.ids.first], true, true⟩⟩ := by
    simp [Link.heard, Link.send?, Link.outgoing, hdown, Pipe.send?, Pipe.fresh, Pipe.takesMore,
      Link.withOutgoing]
  have hids : (r.onLink n fun _ => link.heard []).ids = r.ids := rfl
  let s : Relay := { r.onLink n fun _ => link.heard [] with
    sessions := r.sessions ++ [(r.ids.first, ⟨[], []⟩)], ids := r.ids.rest }
  have hs : r.Touches s n := ⟨length_onLink r n fun _ => link.heard [],
    fun _ hm => getElem?_onLink_ne r hm fun _ => link.heard []⟩
  have hself : s.lines[n]? = some ⟨link.heard [], .greeting⟩ :=
    getElem?_onLink_self hline fun _ => link.heard []
  unfold openSession
  simp only [hids, hsend]
  refine ⟨?_, rfl, ?_⟩
  · exact hs.trans ((touches_onLink s n _).trans (touches_assign _ n _))
  · exact getElem?_assign_self (getElem?_onLink_self hself _) _

/-- A presenter that has gone gets no session. -/
theorem attend_start_unanswered (hline : r.lines[n]? = some ⟨link, .greeting⟩)
    (h : link.up.waiting = [startText]) (hdown : link.down.isOpen = false) :
    ∃ r' link', r.attend n = some r' ∧ r.Touches r' n ∧ r'.sessions = r.sessions ∧
      r'.lines[n]? = some ⟨link', .gone⟩ := by
  refine ⟨_, (link.heard []).leave .far, attend_start hline h, ?_⟩
  have hsend : (link.heard []).send? .far (assignedText r.ids.first) = none := by
    simp [Link.heard, Link.send?, Link.outgoing, Pipe.send?, Pipe.takesMore, hdown]
  have hids : (r.onLink n fun _ => link.heard []).ids = r.ids := rfl
  let s : Relay := { r.onLink n fun _ => link.heard [] with ids := r.ids.rest }
  have hs : r.Touches s n := ⟨length_onLink r n fun _ => link.heard [],
    fun _ hm => getElem?_onLink_ne r hm fun _ => link.heard []⟩
  have hself : s.lines[n]? = some ⟨link.heard [], .greeting⟩ :=
    getElem?_onLink_self hline fun _ => link.heard []
  unfold openSession
  simp only [hids, hsend]
  exact ⟨hs.trans (touches_leave s n), rfl, getElem?_leave_self hself⟩

/-! ## The line of a presenter -/

section Presenter

variable {id : String} {log : List String} {ws : List Nat}

/-- What a presenter passes on is kept, and all watchers that can be reached are sent it. -/
theorem attend_passed (hline : r.lines[n]? = some ⟨link, .presenting id⟩)
    (hsessions : r.sessions = [(id, ⟨log, ws⟩)]) (hws : ws.Nodup) (hn : n ∉ ws)
    (h : link.up.waiting = passedText text :: rest) :
    ∃ r', r.attend n = some r' ∧ r'.lines.length = r.lines.length ∧
      r'.sessions = [(id, ⟨log ++ [shownText text], ws.filter r.reaches⟩)] ∧
      r'.lines[n]? = some ⟨link.heard rest, .presenting id⟩ ∧
      ∀ m, m ≠ n → r'.lines[m]? = r.lines[m]?.map fun line =>
        if m ∈ ws.filter r.reaches then ⟨line.link.send .far (shownText text), line.attendant⟩
        else line := by
  have hattend : r.attend n = some ((r.onLink n fun _ => link.heard rest).publish id
      (shownText text)) := by
    rw [attend_message hline (by simp) (by simp) h, handle_presenting, passedAction?_passedText]
  obtain ⟨hsession, -, hserves⟩ := publish_spec (r := r.onLink n fun _ => link.heard rest)
    (session?_of_sessions hsessions) hws (shownText text)
  rw [filter_reaches_onLink r hn] at hsession hserves
  refine ⟨_, hattend, ?_, ?_, ?_, ?_⟩
  · rw [← length_onLink r n fun _ => link.heard rest]
    exact hserves.length
  · rw [hsession]
    simp [onSession, hsessions]
  · have hnot : n ∉ ws.filter r.reaches := fun hmem => hn (List.mem_filter.mp hmem).1
    have hself := hserves.lines n
    rw [getElem?_onLink_self hline] at hself
    simpa [hnot] using hself
  · intro m hm
    have hother := hserves.lines m
    rw [getElem?_onLink_ne r hm] at hother
    exact hother

/-- A presenter that sends no more ends its session. -/
theorem attend_ended (hline : r.lines[n]? = some ⟨link, .presenting id⟩)
    (hsessions : r.sessions = [(id, ⟨log, ws⟩)]) (hws : ws.Nodup) (hn : n ∉ ws)
    (h : link.up.waiting = []) (hmore : link.up.takesMore = false) :
    ∃ r', r.attend n = some r' ∧ r'.lines.length = r.lines.length ∧ r'.sessions = [] ∧
      r'.lines[n]? = some ⟨link.leave .far, .gone⟩ ∧
      ∀ m, m ≠ n → r'.lines[m]? = r.lines[m]?.map fun line =>
        if m ∈ ws then ⟨line.link.hangUp .far, line.attendant⟩ else line := by
  have hattend := attend_silence hline (by simp) (by simp) h
  rw [hmore] at hattend
  obtain ⟨hsession, -, hserves⟩ := closeSession_spec (session?_of_sessions hsessions) hws
  have htouches := touches_leave (r.closeSession id) n
  refine ⟨_, hattend, ?_, ?_, ?_, ?_⟩
  · rw [← hserves.length]
    exact htouches.length
  · have hnone : (r.closeSession id).sessions = [] := by simp [hsession, hsessions]
    exact hnone
  · have hself := hserves.lines n
    rw [hline] at hself
    simp only [Option.map_some, hn, if_false] at hself
    exact getElem?_leave_self hself
  · intro m hm
    rw [← hserves.lines m]
    exact htouches.others m hm

end Presenter

/-! ## The line of a watcher -/

/-- The text by which a watcher calls. -/
def watchText (id : String) : String := (Message.startWatching id : Message Action).text

/-- What can come of a step on the line of a watcher. -/
inductive WatcherStep (r : Relay) (n : Nat) (line : Line) (r' : Relay) : Prop
  | refused (link : Link) : line.attendant = .greeting → r'.sessions = r.sessions →
      r'.lines[n]? = some ⟨link, .gone⟩ → link.down = line.link.down.hangUp →
      WatcherStep r n line r'
  | joined (id : String) (s : Session) (link : Link) : line.attendant = .greeting →
      r.session? id = some s →
      r'.sessions = r.sessions.map (fun (i, t) =>
        (i, if i = id then { t with watchers := t.watchers ++ [n] } else t)) →
      r'.lines[n]? = some ⟨link, .watching⟩ → link.up.waiting = [] →
      link.down = { line.link.down with waiting := line.link.down.waiting ++ s.log } →
      WatcherStep r n line r'
  | left (link : Link) : line.attendant = .watching → r'.sessions = r.sessions →
      r'.lines[n]? = some ⟨link, .gone⟩ → link.down = line.link.down → WatcherStep r n line r'

theorem attend_join {id : String} (hline : r.lines[n]? = some ⟨link, .greeting⟩)
    (h : link.up.waiting = [watchText id]) :
    r.attend n = some ((r.onLink n fun _ => link.heard []).join n (link.heard []) id) := by
  rw [attend_message hline (by simp) (by simp) h]
  unfold handle watchText
  rw [relayed?_startWatching]

theorem attend_watch {id : String} (hline : r.lines[n]? = some ⟨link, .greeting⟩)
    (h : link.up.waiting = [watchText id]) :
    ∃ r', r.attend n = some r' ∧ r.Touches r' n ∧ r.WatcherStep n ⟨link, .greeting⟩ r' := by
  have hattend := attend_join hline h
  refine ⟨_, hattend, ?_⟩
  cases attends_of_attend hline hattend with
  | opens text link' hwaiting htext htouches =>
    rw [h, List.cons.injEq] at hwaiting
    rw [← hwaiting.1, watchText, relayed?_startWatching] at htext
    simp at htext
  | joins text id' s link' hwaiting htext hs htouches hsessions hids hline' hdown =>
    rw [h, List.cons.injEq] at hwaiting
    exact ⟨htouches, .joined id' s link' rfl hs hsessions hline' hwaiting.2.symm hdown⟩
  | skips _ text rest hwaiting hskip => simp at hskip
  | refuses link' htouches hsessions hids hline' hdown =>
    exact ⟨htouches, .refused link' rfl hsessions hline' hdown⟩

/-- A watcher that listens is let in exactly if there is the session that it asks for. -/
theorem attend_watch_listening {id : String} (hline : r.lines[n]? = some ⟨link, .greeting⟩)
    (h : link.up.waiting = [watchText id]) (hdown : link.down.takesMore = true) :
    ∃ r' link', r.attend n = some r' ∧
      r'.lines[n]? = some ⟨link', if (r.session? id).isSome then .watching else .gone⟩ := by
  have hself : (r.onLink n fun _ => link.heard []).lines[n]? = some ⟨link.heard [], .greeting⟩ :=
    getElem?_onLink_self hline _
  have hsession : (r.onLink n fun _ => link.heard []).session? id = r.session? id := rfl
  cases hs : r.session? id with
  | none =>
    refine ⟨_, (link.heard []).leave .far, attend_join hline h, ?_⟩
    unfold join
    rw [hsession, hs]
    exact getElem?_leave_self hself
  | some s =>
    obtain ⟨sent, hsent⟩ :=
      Link.exists_foldlM_send?_far s.log (l := link.heard []) hdown
    refine ⟨_, sent, attend_join hline h, ?_⟩
    unfold join
    simp only [hsession, hs, hsent]
    exact getElem?_assign_self (getElem?_onLink_self hself _) _

/-- A watcher that listens keeps its place, one that has gone loses it. -/
theorem attend_watching (hline : r.lines[n]? = some ⟨link, .watching⟩) (h : link.up.waiting = [])
    {r' : Relay} (hattend : r.attend n = some r') :
    r.Touches r' n ∧ r.WatcherStep n ⟨link, .watching⟩ r' := by
  cases attends_of_attend hline hattend with
  | skips _ text rest hwaiting => simp [h] at hwaiting
  | leaves link' htouches hsessions hids hline' hdown =>
    exact ⟨htouches, .left link' rfl hsessions hline' hdown⟩

end Attend

end Relay

end TurtleScript
