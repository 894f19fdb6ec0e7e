-- The observer's side of a session. What it has dealt with, what waits in its
-- inbox and what is on its way to it are together what the relay has told it:
-- all of the log while it watches, and nothing before that.
import TurtleScript.Proofs.Sharing.Presenting

namespace TurtleScript

/-! ## News -/

/-- An event brings something new to an observer of this generation. -/
def Event.tells (generation : Nat) : Event → Bool
  | .remote g _ | .sessionClosed _ g => g = generation
  | _ => false

/-- What waits for an observer of this generation. -/
def news (generation : Nat) (oin : List Event) : List Event := oin.filter (·.tells generation)

theorem news_append (generation : Nat) (oin events : List Event) :
    news generation (oin ++ events) = news generation oin ++ news generation events :=
  List.filter_append ..

/-- Lines of script as an observer gets them. -/
def remotes (generation : Nat) (texts : List String) : List Event :=
  texts.map fun text => .remote generation (.submit text)

/-- Nothing more comes, and this is all there was: nothing for one who was not let in, and all
lines for one who was. -/
def Told (stage : Stage) (texts : List String) (joined : Bool) (got : List String) : Prop :=
  joined = false ∧ got = [] ∨ joined = true ∧ stage = .past ∧ got = texts

/-- A later stage of a session, or the same one with more watchers. -/
structure Widens (stage : Stage) (texts : List String) (stage' : Stage) (texts' : List String) :
    Prop where
  past : stage = .past → stage' = .past ∧ texts' = texts
  live : ∀ log ws, stage = .live log ws → ∃ vs, stage' = .live log vs ∧ ∀ m ∈ ws, m ∈ vs

theorem widens_self (stage : Stage) {texts texts' : List String}
    (h : stage = .past → texts' = texts) : Widens stage texts stage texts' :=
  ⟨fun hover => ⟨hover, h hover⟩, fun _ ws hlive => ⟨ws, hlive, fun _ hm => hm⟩⟩

theorem widens_ahead (stage : Stage) (texts texts' : List String) :
    Widens .ahead texts stage texts' := ⟨by simp, by simp⟩

theorem Told.widens {stage stage' : Stage} {texts texts' got : List String} {joined : Bool}
    (h : Told stage texts joined got) (hw : Widens stage texts stage' texts') :
    Told stage' texts' joined got := by
  rcases h with hnot | ⟨hjoined, hover, hgot⟩
  · exact Or.inl hnot
  · obtain ⟨hover', htexts⟩ := hw.past hover
    exact Or.inr ⟨hjoined, hover', hgot.trans htexts.symm⟩

/-- As long as there is a session, nothing is told to those who are not let in. -/
theorem Told.of_live {log texts got : List String} {ws : List Nat} {joined : Bool}
    (h : Told (.live log ws) texts joined got) (stage : Stage) (texts' : List String) :
    Told stage texts' joined got := by
  rcases h with hnot | ⟨-, hover, -⟩
  · exact Or.inl hnot
  · simp at hover

namespace Exchange

/-- The observer watches, and its task has come so far. -/
structure Tunes (x : Exchange) (o : Client) (id : String) (phase : Phase) : Prop where
  watching : o.watching = some ⟨o.generation, id⟩
  task : x.tasks[o.generation]? = some (watcherTask o.generation id phase false)

/-- The states of the observer's side. -/
inductive Observes (x : Exchange) (o : Client) (oin : List Event) (texts : List String)
    (joined : Bool) (stage : Stage) : Prop
  | idle (got : List String) :
      o.watching = none → Told stage texts joined got → o.present.bare = scriptOf got →
      Observes x o oin texts joined stage
  | calling (id : String) :
      x.Tunes o id .calling → joined = false → news o.generation oin = [] →
      o.present.bare = scriptOf [] → Observes x o oin texts joined stage
  | asking (id : String) (l : Nat) :
      x.Tunes o id (.listening l) → joined = false → news o.generation oin = [] →
      o.present.bare = scriptOf [] →
      x.relay.lines[l]? = some ⟨⟨⟨[Relay.watchText id], true, true⟩, .fresh⟩, .greeting⟩ →
      Observes x o oin texts joined stage
  | following (id : String) (l : Nat) (log : List String) (ws : List Nat)
      (seen heard coming : List String) (up : Pipe) (attendant : Attendant) :
      x.Tunes o id (.listening l) → joined = true → stage = .live log ws → l ∈ ws →
      x.relay.lines[l]? = some ⟨⟨up, ⟨coming.map shownText, true, true⟩⟩, attendant⟩ →
      attendant ≠ .greeting → news o.generation oin = remotes o.generation heard →
      o.present.bare = scriptOf seen → log = seen ++ heard ++ coming →
      Observes x o oin texts joined stage
  | finishing (id : String) (l : Nat) (seen heard coming : List String) (up : Pipe)
      (attendant : Attendant) :
      x.Tunes o id (.listening l) → Told stage texts joined (seen ++ heard ++ coming) →
      x.relay.lines[l]? = some ⟨⟨up, ⟨coming.map shownText, false, true⟩⟩, attendant⟩ →
      attendant ≠ .greeting → (attendant = .watching → joined = true) →
      news o.generation oin = remotes o.generation heard → o.present.bare = scriptOf seen →
      Observes x o oin texts joined stage
  | ended (id : String) (seen heard : List String) :
      x.Tunes o id .finished → Told stage texts joined (seen ++ heard) →
      news o.generation oin =
        remotes o.generation heard ++ [.sessionClosed .observer o.generation] →
      o.present.bare = scriptOf seen → Observes x o oin texts joined stage

section Observes

variable {x y : Exchange} {o o' : Client} {oin oin' : List Event} {texts texts' : List String}
  {joined : Bool} {stage stage' : Stage} {latest l : Nat} {id : String} {phase : Phase}

/-! ## What others do -/

theorem Tunes.spared (h : x.Tunes o id phase) (hs : x.Spares y o.generation) : y.Tunes o id phase :=
  ⟨h.watching, hs.task.trans h.task⟩

theorem Tunes.same (h : x.Tunes o id phase) (hwatching : o'.watching = o.watching)
    (hgeneration : o'.generation = o.generation) : x.Tunes o' id phase := by
  refine ⟨?_, ?_⟩
  · rw [hwatching, hgeneration]
    exact h.watching
  · rw [hgeneration]
    exact h.task

theorem Tunes.caller (h : x.Tunes o id phase) (hx : x.Orderly latest) (hl : phase.line? = some l) :
    x.callers[l]? = some o.generation := hx.own _ _ l h.task hl

theorem Tunes.watching_ne_none (h : x.Tunes o id phase) : o.watching ≠ none := by
  rw [h.watching]
  simp

/-- What spares the observer's task does not change its side while the session goes on. -/
theorem Observes.spared (h : x.Observes o oin texts joined stage) (hx : x.Orderly latest)
    (hs : o.watching ≠ none → x.Spares y o.generation) (hw : Widens stage texts stage' texts') :
    y.Observes o oin texts' joined stage' := by
  cases h with
  | idle got hnone htold hscript => exact .idle got hnone (htold.widens hw) hscript
  | calling id htunes hjoined hnews hscript =>
    exact .calling id (htunes.spared (hs htunes.watching_ne_none)) hjoined hnews hscript
  | asking id l htunes hjoined hnews hscript hline =>
    have hspares := hs htunes.watching_ne_none
    have hline' := hspares.lines l (htunes.caller hx rfl)
    exact .asking id l (htunes.spared hspares) hjoined hnews hscript (hline'.trans hline)
  | following id l log ws seen heard coming up attendant htunes hjoined hstage hl hline hgreeted hnews
      hscript hlog =>
    have hspares := hs htunes.watching_ne_none
    have hline' := hspares.lines l (htunes.caller hx rfl)
    obtain ⟨vs, hstage', hsub⟩ := hw.live log ws hstage
    exact .following id l log vs seen heard coming up attendant (htunes.spared hspares) hjoined
      hstage' (hsub l hl) (hline'.trans hline) hgreeted hnews hscript hlog
  | finishing id l seen heard coming up attendant htunes htold hline hgreeted hwatching hnews hscript =>
    have hspares := hs htunes.watching_ne_none
    have hline' := hspares.lines l (htunes.caller hx rfl)
    exact .finishing id l seen heard coming up attendant (htunes.spared hspares) (htold.widens hw)
      (hline'.trans hline) hgreeted hwatching hnews hscript
  | ended id seen heard htunes htold hnews hscript =>
    exact .ended id seen heard (htunes.spared (hs htunes.watching_ne_none)) (htold.widens hw) hnews
      hscript

/-- An observer that remembers the same and has the same news is on the same side. -/
theorem Observes.same (h : x.Observes o oin texts joined stage)
    (hwatching : o'.watching = o.watching) (hgeneration : o'.generation = o.generation)
    (hpresent : o'.present = o.present)
    (hnews : o.watching ≠ none → news o.generation oin' = news o.generation oin) :
    x.Observes o' oin' texts joined stage := by
  have hnews' : ∀ {id phase}, x.Tunes o id phase →
      news o'.generation oin' = news o.generation oin := by
    intro id phase htunes
    rw [hgeneration]
    exact hnews htunes.watching_ne_none
  cases h with
  | idle got hnone htold hscript =>
    exact .idle got (hwatching.trans hnone) htold (hpresent ▸ hscript)
  | calling id htunes hjoined hold hscript =>
    exact .calling id (htunes.same hwatching hgeneration) hjoined ((hnews' htunes).trans hold)
      (hpresent ▸ hscript)
  | asking id l htunes hjoined hold hscript hline =>
    exact .asking id l (htunes.same hwatching hgeneration) hjoined ((hnews' htunes).trans hold)
      (hpresent ▸ hscript) hline
  | following id l log ws seen heard coming up attendant htunes hjoined hstage hl hline hgreeted hold
      hscript hlog =>
    exact .following id l log ws seen heard coming up attendant
      (htunes.same hwatching hgeneration) hjoined hstage hl hline hgreeted
      ((hnews' htunes).trans (hgeneration ▸ hold)) (hpresent ▸ hscript) hlog
  | finishing id l seen heard coming up attendant htunes htold hline hgreeted hattendant hold
      hscript =>
    exact .finishing id l seen heard coming up attendant (htunes.same hwatching hgeneration) htold
      hline hgreeted hattendant ((hnews' htunes).trans (hgeneration ▸ hold)) (hpresent ▸ hscript)
  | ended id seen heard htunes htold hold hscript =>
    exact .ended id seen heard (htunes.same hwatching hgeneration) htold
      ((hnews' htunes).trans (hgeneration ▸ hold)) (hpresent ▸ hscript)

/-- Events of other sessions are nothing new. -/
theorem news_of_others {generation : Nat} {events : List Event}
    (h : ∀ e ∈ events, ∃ t, e.watched? = some t ∧ t ≠ generation) :
    news generation events = [] := by
  unfold news
  rw [List.filter_eq_nil_iff]
  intro e he htells
  obtain ⟨t, hwatched, ht⟩ := h e he
  cases e with
  | remote g action =>
    simp only [Event.watched?, Option.some.injEq] at hwatched
    simp only [Event.tells, decide_eq_true_eq] at htells
    omega
  | sessionClosed role g =>
    cases role with
    | presenter => simp [Event.watched?] at hwatched
    | observer =>
      simp only [Event.watched?, Option.some.injEq] at hwatched
      simp only [Event.tells, decide_eq_true_eq] at htells
      omega
  | _ => simp [Event.tells] at htells

/-! ## What the relay hands on -/

theorem Tunes.answer (h : x.Tunes o id phase) (r : Relay) : (x.answer r).Tunes o id phase :=
  ⟨h.watching, h.task⟩

theorem reaches_of_line {r : Relay} {line : Line} (h : r.lines[l]? = some line) :
    r.reaches l = line.link.down.takesMore := by
  simp [Relay.reaches, Relay.link?, h]

section Audience

variable {p : Nat} {log : List String} {ws : List Nat} {r : Relay}
  (hp : x.callers[p]? = some 0) (hgeneration : o.watching ≠ none → o.generation ≠ 0)
  (haudience : ∀ m ∈ ws, ∃ t line, x.callers[m]? = some (t + 1) ∧ x.relay.lines[m]? = some line ∧
    line.attendant ≠ .greeting)

include hp hgeneration in
theorem Tunes.line_ne (h : x.Tunes o id phase) (hx : x.Orderly latest) (hl : phase.line? = some l) :
    l ≠ p := by
  rintro rfl
  have hcaller := h.caller hx hl
  rw [hp, Option.some.injEq] at hcaller
  exact hgeneration h.watching_ne_none hcaller.symm

include haudience in
theorem not_mem_of_greeting {link : Link} (h : x.relay.lines[l]? = some ⟨link, .greeting⟩) :
    l ∉ ws := by
  intro hmem
  obtain ⟨t, line, -, hline, hgreeted⟩ := haudience l hmem
  rw [h, Option.some.injEq] at hline
  exact hgreeted (hline ▸ rfl)

include hp hgeneration haudience in
/-- A line of script that is handed on comes to the observer behind all others, if it watches. -/
theorem Observes.passed {text : String} (h : x.Observes o oin texts joined (.live log ws))
    (hx : x.Orderly latest)
    (hothers : ∀ m, m ≠ p → r.lines[m]? = x.relay.lines[m]?.map fun line =>
      if m ∈ ws.filter x.relay.reaches then ⟨line.link.send .far (shownText text), line.attendant⟩
      else line) :
    (x.answer r).Observes o oin texts joined
      (.live (log ++ [text]) (ws.filter x.relay.reaches)) := by
  cases h with
  | idle got hnone htold hscript => exact .idle got hnone (htold.of_live _ _) hscript
  | calling id htunes hjoined hnews hscript =>
    exact .calling id (htunes.answer r) hjoined hnews hscript
  | asking id l htunes hjoined hnews hscript hline =>
    have hnot : l ∉ ws.filter x.relay.reaches := fun hmem =>
      not_mem_of_greeting haudience hline (List.mem_filter.mp hmem).1
    have hnew := hothers l (htunes.line_ne hp hgeneration hx rfl)
    rw [hline, Option.map_some, if_neg hnot] at hnew
    exact .asking id l (htunes.answer r) hjoined hnews hscript hnew
  | following id l log' ws' seen heard coming up attendant htunes hjoined hstage hl hline hgreeted
      hnews hscript hlog =>
    cases hstage
    have hmem : l ∈ ws.filter x.relay.reaches :=
      List.mem_filter.mpr ⟨hl, by rw [reaches_of_line hline]; rfl⟩
    have hnew := hothers l (htunes.line_ne hp hgeneration hx rfl)
    rw [hline, Option.map_some, if_pos hmem] at hnew
    have hsent : Link.send ⟨up, ⟨coming.map shownText, true, true⟩⟩ .far (shownText text) =
        ⟨up, ⟨(coming ++ [text]).map shownText, true, true⟩⟩ := by
      simp [Link.send, Link.send?, Link.outgoing, Pipe.send?, Pipe.takesMore, Link.withOutgoing]
    rw [hsent] at hnew
    exact .following id l _ _ seen heard (coming ++ [text]) up attendant (htunes.answer r) hjoined rfl
      hmem hnew hgreeted hnews hscript (by rw [hlog]; simp)
  | finishing id l seen heard coming up attendant htunes htold hline hgreeted hattendant hnews
      hscript =>
    have hnot : l ∉ ws.filter x.relay.reaches := by
      intro hmem
      have hreaches := (List.mem_filter.mp hmem).2
      rw [reaches_of_line hline] at hreaches
      simp [Pipe.takesMore] at hreaches
    have hnew := hothers l (htunes.line_ne hp hgeneration hx rfl)
    rw [hline, Option.map_some, if_neg hnot] at hnew
    exact .finishing id l seen heard coming up attendant (htunes.answer r) (htold.of_live _ _) hnew
      hgreeted hattendant hnews hscript
  | ended id seen heard htunes htold hnews hscript =>
    exact .ended id seen heard (htunes.answer r) (htold.of_live _ _) hnews hscript

include hp hgeneration haudience in
/-- When the session ends, an observer that watches has been sent all lines. -/
theorem Observes.hungUp (h : x.Observes o oin texts joined (.live texts ws)) (hx : x.Orderly latest)
    (hothers : ∀ m, m ≠ p → r.lines[m]? = x.relay.lines[m]?.map fun line =>
      if m ∈ ws then ⟨line.link.hangUp .far, line.attendant⟩ else line) :
    (x.answer r).Observes o oin texts joined .past := by
  cases h with
  | idle got hnone htold hscript => exact .idle got hnone (htold.of_live _ _) hscript
  | calling id htunes hjoined hnews hscript =>
    exact .calling id (htunes.answer r) hjoined hnews hscript
  | asking id l htunes hjoined hnews hscript hline =>
    have hnew := hothers l (htunes.line_ne hp hgeneration hx rfl)
    rw [hline, Option.map_some, if_neg (not_mem_of_greeting haudience hline)] at hnew
    exact .asking id l (htunes.answer r) hjoined hnews hscript hnew
  | following id l log ws' seen heard coming up attendant htunes hjoined hstage hl hline hgreeted
      hnews hscript hlog =>
    cases hstage
    have hnew := hothers l (htunes.line_ne hp hgeneration hx rfl)
    rw [hline, Option.map_some, if_pos hl] at hnew
    exact .finishing id l seen heard coming up attendant (htunes.answer r)
      (Or.inr ⟨hjoined, rfl, hlog.symm⟩) hnew hgreeted (fun _ => hjoined) hnews hscript
  | finishing id l seen heard coming up attendant htunes htold hline hgreeted hattendant hnews
      hscript =>
    have hnew := hothers l (htunes.line_ne hp hgeneration hx rfl)
    rw [hline, Option.map_some] at hnew
    have hsame : (if l ∈ ws then (⟨Link.hangUp ⟨up, ⟨coming.map shownText, false, true⟩⟩ .far,
        attendant⟩ : Line) else ⟨⟨up, ⟨coming.map shownText, false, true⟩⟩, attendant⟩) =
        ⟨⟨up, ⟨coming.map shownText, false, true⟩⟩, attendant⟩ := by
      split <;> rfl
    exact .finishing id l seen heard coming up attendant (htunes.answer r) (htold.of_live _ _)
      (hnew.trans (congrArg some hsame)) hgreeted hattendant hnews hscript
  | ended id seen heard htunes htold hnews hscript =>
    exact .ended id seen heard (htunes.answer r) (htold.of_live _ _) hnews hscript

end Audience

end Observes

end Exchange

end TurtleScript
