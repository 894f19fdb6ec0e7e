-- What the user of a watching shell can do to the script. Lines of script are
-- turned away, and most requests have nothing to do with the script; but undo,
-- redo, reset, a new name, a loaded script and a fresh session go through the
-- store as if nobody was watched. Whatever else is typed in between, the script
-- is the one that the presenter makes.
import TurtleScript.Proofs.Answering
import TurtleScript.Proofs.Sharing.Repeating

namespace TurtleScript

/-! ## Actions in a row -/

/-- What some actions make of the timeline of a script, one after the other. -/
def Timeline.reduceAll (t : Timeline Script) (actions : List Action) : Timeline Script :=
  actions.foldl (reduce Script.nextId Script.apply) t

theorem Timeline.reduceAll_append (t : Timeline Script) (xs ys : List Action) :
    t.reduceAll (xs ++ ys) = (t.reduceAll xs).reduceAll ys := List.foldl_append

theorem Store.script_foldl_dispatch (actions : List Action) (s : Store) :
    (actions.foldl dispatch s).script = s.script.reduceAll actions := by
  induction actions generalizing s with
  | nil => rfl
  | cons action actions ih => exact ih _

theorem Action.isReplayed_of_isEdit {action : Action} (h : action.isEdit = true) :
    action.isReplayed = true := by
  cases action <;> simp_all [isEdit, isReplayed]

/-- After edits the present script is what they make of it. -/
theorem Timeline.present_reduceAll {actions : List Action} (h : ∀ action ∈ actions, action.isEdit = true)
    (t : Timeline Script) : (t.reduceAll actions).present = actions.foldl Script.apply t.present := by
  induction actions generalizing t with
  | nil => rfl
  | cons action actions ih =>
    have hone : (t.reduce Script.nextId Script.apply action).present = t.present.apply action := by
      have hedit := h action List.mem_cons_self
      refine Store.present_dispatch ⟨t, .idle⟩ ?_ ?_ <;>
        · rintro rfl
          cases hedit
    rw [List.foldl_cons, ← hone]
    exact ih (fun a ha => h a (List.mem_cons_of_mem _ ha)) _

/-! ## Loading -/

/-- The script as it is read again from the texts of its tokens. -/
def Script.reread (s : Script) : Script :=
  { (submissions s.tokens.toList).foldl submit .empty with name := s.name }

theorem Shell.isEdit_of_mem_loading {script : Script} {action : Action}
    (h : action ∈ loading script) : action.isEdit = true := by
  simp only [loading, List.cons_append, List.mem_cons, List.mem_append, List.mem_map,
    List.not_mem_nil, or_false] at h
  rcases h with rfl | ⟨text, -, rfl⟩ | rfl <;> rfl

theorem Timeline.present_reduceAll_loading (t : Timeline Script) (script : Script) :
    (t.reduceAll (Shell.loading script)).present = script.reread := by
  rw [present_reduceAll fun _ => Shell.isEdit_of_mem_loading, Shell.loading, List.cons_append,
    List.foldl_cons, List.foldl_append, List.foldl_map]
  rfl

/-! ## What requests do to the script -/

namespace Request

/-- A request to begin or end watching. -/
def isOfWatching : Request → Bool
  | .watch _ | .unwatch => true
  | _ => false

/-- The actions about the script by which a watching shell meets a request. -/
def edits (outcome : Except FileFault String) : Request → List Action
  | .undo => [.undo]
  | .redo => [.redo]
  | .reset | .share true => [.reset]
  | .rename name => [.rename name]
  | .load _ =>
    match Shell.loaded outcome with
    | .ok script => Shell.loading script
    | .error _ => []
  | _ => []

/-- A request leaves the present script as it is: there is nothing to undo or redo, or it makes the
script what it is already, or it is not about the script. -/
def Spares (t : Timeline Script) (outcome : Except FileFault String) : Request → Prop
  | .undo => ∀ previous ∈ t.past.head?, previous = t.present
  | .redo => ∀ next ∈ t.future.head?, next = t.present
  | .reset | .share true => t.present = .empty
  | .rename name => t.present.name = name
  | .load _ => ∀ script, Shell.loaded outcome = .ok script → script.reread = t.present
  | _ => True

/-- The present script stays exactly if the request spares it. -/
theorem present_reduceAll_edits_eq_iff (t : Timeline Script) (outcome : Except FileFault String)
    (r : Request) : (t.reduceAll (r.edits outcome)).present = t.present ↔ r.Spares t outcome := by
  obtain ⟨past, present, future⟩ := t
  have hreset : (Timeline.reduceAll ⟨past, present, future⟩ [.reset]).present = present ↔
      present = .empty := by
    rw [Timeline.present_reduceAll (by simp [Action.isEdit])]
    exact eq_comm
  cases r with
  | undo => cases past <;> simp [edits, Spares, Timeline.reduceAll, Timeline.reduce, Timeline.undo]
  | redo => cases future <;> simp [edits, Spares, Timeline.reduceAll, Timeline.reduce, Timeline.redo]
  | reset => exact hreset
  | share fresh =>
    cases fresh with
    | true => exact hreset
    | false => simp [edits, Spares, Timeline.reduceAll]
  | rename name =>
    have hrename : (Timeline.reduceAll ⟨past, present, future⟩ [.rename name]).present =
        { present with name } := Timeline.present_reduceAll (by simp [Action.isEdit]) _
    unfold edits Spares
    rw [hrename]
    constructor
    · intro h
      rw [← h]
    · rintro rfl
      rfl
  | load path =>
    unfold edits Spares
    cases Shell.loaded outcome with
    | error fault => simp [Timeline.reduceAll]
    | ok script =>
      simp only [Timeline.present_reduceAll_loading, Except.ok.injEq, forall_eq']
  | _ => simp [edits, Spares, Timeline.reduceAll]

/-! ## What requests are typed as -/

/-- The names of the requests by which the script can be changed while another one is watched. -/
def editNames : List String := ["undo", "redo", "reset", "name", "load", "share"]

/-- What is typed behind the slash, up to the first blank; a line of script has no slash. -/
def typedName? (line : String) : Option (List Char) :=
  match trimBlanks line.toList with
  | '/' :: cs => some (cs.takeWhile (· ≠ ' '))
  | _ => none

/-- What was typed is the beginning of the name that it is completed to. -/
theorem isPrefix_complete (typed : String) : typed.toList <+: (complete typed).toList := by
  unfold complete
  cases h : names.find? fun name => typed.toList.isPrefixOf name.toList with
  | none => exact List.prefix_rfl
  | some name =>
    have hbegins := List.find?_some h
    exact List.isPrefixOf_iff_prefix.mp hbegins

theorem edits_named_eq_nil {typed : String} (h : ∀ name ∈ editNames, ¬ typed.toList <+: name.toList)
    (arg : String) (outcome : Except FileFault String) : (named typed arg).edits outcome = [] := by
  have hother : ∀ name ∈ editNames, complete typed ≠ name := by
    rintro name hname rfl
    exact h _ hname (isPrefix_complete typed)
  simp only [editNames, List.mem_cons, List.not_mem_nil, or_false, forall_eq_or_imp, forall_eq] at hother
  obtain ⟨hundo, hredo, hreset, hrename, hload, hshare⟩ := hother
  unfold named
  extract_lets withArg
  have harg : ∀ r : Request, r.edits outcome = [] → (withArg r).edits outcome = [] := by
    intro r hr
    unfold withArg
    split
    · rfl
    · exact hr
  generalize complete typed = full at *
  split
  case h_1 | h_2 | h_3 | h_4 | h_6 | h_7 => contradiction
  case h_5 | h_9 => exact harg _ rfl
  all_goals rfl

/-- Only a request whose name is typed, or cut short, is about the script. -/
theorem edits_ofLine_eq_nil {line : String}
    (h : ∀ typed ∈ typedName? line, ∀ name ∈ editNames, ¬ typed <+: name.toList)
    (outcome : Except FileFault String) : (ofLine line).edits outcome = [] := by
  unfold typedName? at h
  unfold ofLine
  split
  · next cs hcs =>
    rw [hcs] at h
    have hname := h _ rfl
    split
    · next name arg hsplit =>
      rw [takeWhile_ne_eq, hsplit] at hname
      exact edits_named_eq_nil (by simpa using hname) _ outcome
    · next hsplit =>
      rw [takeWhile_ne_eq, hsplit] at hname
      exact edits_named_eq_nil (by simpa using hname) _ outcome
  · rfl

end Request

/-! ## Watching on -/

/-- The client watches the same session as before, and its timeline is what some actions have made
of the earlier one. -/
structure Client.WatchesOn (c : Client) (actions : List Action) (later : Client) : Prop where
  watching : later.watching = c.watching
  script : later.store.script = c.store.script.reduceAll actions

namespace Client

variable {c d e : Client} {xs ys : List Action}

theorem watchesOn_self (c : Client) : c.WatchesOn [] c := ⟨rfl, rfl⟩

theorem WatchesOn.trans (h : c.WatchesOn xs d) (h' : d.WatchesOn ys e) : c.WatchesOn (xs ++ ys) e where
  watching := h'.watching.trans h.watching
  script := by rw [h'.script, h.script, Timeline.reduceAll_append]

theorem WatchesOn.of_repeats {t : Turn} (h : t.Repeats c xs) : c.WatchesOn xs t.client where
  watching := h.watching
  script := by rw [h.store, Store.script_foldl_dispatch]

/-- Only actions that a watcher would repeat count for the timeline. -/
theorem watchesOn_turn {presenting : Option Presenting} {generation : Nat} {dispatched : List Action}
    {effects : List Effect} (h : dispatched.filter Action.isReplayed = xs) :
    c.WatchesOn xs (c.turn presenting c.watching generation dispatched effects).client where
  watching := rfl
  script := by
    rw [← h, ← Store.script_foldl_dispatch]
    exact Store.script_foldl dispatched rfl

theorem watchesOn_dispatch (c : Client) {action : Action} (h : action.isReplayed = true) :
    c.WatchesOn [action] (c.dispatch action).client :=
  .of_repeats ((acts_dispatch c action).repeats h)

theorem watchesOn_startSharing (c : Client) (fresh : Bool) :
    c.WatchesOn (if fresh then [.reset] else []) (c.dispatch (.startSharing fresh)).client := by
  have hacts := acts_dispatch c (.startSharing fresh)
  generalize c.dispatch (.startSharing fresh) = t at hacts ⊢
  cases hacts with
  | plain h | unshared h | kept h | sent h => cases h
  | starts => cases fresh <;> exact watchesOn_turn rfl

theorem watchesOn_stopSharing (c : Client) : c.WatchesOn [] (c.dispatch .stopSharing).client := by
  have hacts := acts_dispatch c .stopSharing
  generalize c.dispatch .stopSharing = t at hacts ⊢
  cases hacts with
  | unshared h | kept h | sent h => cases h
  | plain | stops => exact watchesOn_turn rfl

theorem watchesOn_foldl (c : Client) {actions : List Action}
    (h : ∀ action ∈ actions, action.isReplayed = true) :
    c.WatchesOn actions (actions.foldl (fun c action => (c.dispatch action).client) c) := by
  induction actions generalizing c with
  | nil => exact c.watchesOn_self
  | cons action actions ih =>
    have hfirst := c.watchesOn_dispatch (h action List.mem_cons_self)
    exact hfirst.trans (ih _ fun a ha => h a (List.mem_cons_of_mem _ ha))

end Client

/-! ## What a watching shell is given -/

namespace Cue

/-- It does not begin or end watching, and is no action that somebody else puts into the inbox. -/
def isBeside (c : Client) : Cue → Bool
  | .line text _ => !(Request.ofLine text).isOfWatching
  | .news (.action _) => false
  | .news (.sessionClosed .observer generation) => !c.isWatching generation
  | .news _ => true

/-- What comes from outside, with the generation of the session it comes from. -/
def remote? : Cue → Option (Nat × Action)
  | .news (.remote generation action) => some (generation, action)
  | _ => none

/-- The actions about the script: those of the presenter, and those by which requests are met. -/
def edits (c : Client) : Cue → List Action
  | .line text outcome => (Request.ofLine text).edits outcome
  | .news (.remote generation action) => c.repeated [(generation, action)]
  | .news _ => []

/-- It is not typed, or what is typed is not about the script. -/
def IsIdle : Cue → Prop
  | .line text outcome => (Request.ofLine text).edits outcome = []
  | .news _ => True

section Congr

variable {c d : Client}

theorem isBeside_congr (h : d.watching = c.watching) (cue : Cue) : cue.isBeside d = cue.isBeside c := by
  have hwatching : d.isWatching = c.isWatching := by
    funext generation
    unfold Client.isWatching
    rw [h]
  unfold isBeside
  rw [hwatching]

theorem edits_congr (h : d.watching = c.watching) (cue : Cue) : cue.edits d = cue.edits c := by
  unfold edits
  split
  · rfl
  · exact Client.repeated_congr h _
  · rfl

end Congr

/-- Where nothing typed is about the script, there is only what the presenter does. -/
theorem flatMap_edits {cues : List Cue} (h : ∀ cue ∈ cues, cue.IsIdle) (c : Client) :
    cues.flatMap (edits c) = c.repeated (cues.filterMap remote?) := by
  induction cues with
  | nil => rfl
  | cons cue cues ih =>
    have hrest := ih fun other hother => h other (List.mem_cons_of_mem _ hother)
    have hsplit : ∀ remote, c.repeated (remote :: cues.filterMap remote?) =
        c.repeated [remote] ++ c.repeated (cues.filterMap remote?) := by
      intro remote
      unfold Client.repeated
      rw [← List.map_append, ← List.filter_append, List.singleton_append]
    rw [List.flatMap_cons, hrest]
    cases cue with
    | line text outcome =>
      have hidle : edits c (.line text outcome) = [] := h _ List.mem_cons_self
      rw [hidle]
      rfl
    | news event =>
      cases event with
      | remote generation action => exact (hsplit (generation, action)).symm
      | _ => rfl

end Cue

/-! ## One cue -/

theorem Client.watchesOn_process (c : Client) {event : Event}
    (h : (Cue.news event).isBeside c = true) :
    c.WatchesOn ((Cue.news event).edits c) (c.process event).client := by
  by_cases hremote : ∃ generation action, event = .remote generation action
  · obtain ⟨generation, action, rfl⟩ := hremote
    exact .of_repeats (c.repeats_process (generation, action))
  · have hnone : (Cue.news event).edits c = [] := by
      cases event with
      | remote generation action => exact absurd ⟨generation, action, rfl⟩ hremote
      | _ => rfl
    have hturns := c.turns_process event
    rw [hnone]
    generalize c.process event = t at hturns ⊢
    cases hturns with
    | acts => cases h
    | repeats => exact absurd ⟨_, _, rfl⟩ hremote
    | ignores | refuses | establishes | joins | loses => exact watchesOn_turn rfl
    | misses hw => simp [Cue.isBeside, isWatching, hw] at h

namespace Shell

variable {s : Shell}

/-- A request is met by its edits, and the shell watches on. -/
theorem watchesOn_handle (hw : s.client.watching.isSome = true) {r : Request}
    (h : r.isOfWatching = false) (outcome : Except FileFault String) :
    s.client.WatchesOn (r.edits outcome) (s.handle outcome r).shell.client := by
  cases r with
  | submit line =>
    simp only [handle, if_pos hw]
    exact s.client.watchesOn_self
  | undo | redo | reset | rename name => exact s.client.watchesOn_dispatch rfl
  | share fresh =>
    have hshare := s.client.watchesOn_startSharing fresh
    cases fresh <;> exact hshare
  | unshare => exact s.client.watchesOn_stopSharing
  | load path =>
    cases hloaded : loaded outcome with
    | ok script =>
      simp only [handle, Request.edits, hloaded, client_dispatchAll]
      exact s.client.watchesOn_foldl fun action haction =>
        Action.isReplayed_of_isEdit (isEdit_of_mem_loading haction)
    | error fault =>
      simp only [handle, Request.edits, hloaded]
      exact s.client.watchesOn_self
  | save path => cases outcome <;> exact s.client.watchesOn_self
  | watch link | unwatch => cases h
  | _ => exact s.client.watchesOn_self

theorem watchesOn_answer (hw : s.client.watching.isSome = true) {cue : Cue}
    (h : cue.isBeside s.client = true) :
    s.client.WatchesOn (cue.edits s.client) (s.answer cue).shell.client := by
  cases cue with
  | line text outcome =>
    have hline : (Request.ofLine text).isOfWatching = false := by simpa [Cue.isBeside] using h
    exact watchesOn_handle hw hline outcome
  | news event => exact s.client.watchesOn_process h

theorem watchesOn_answerAll (hw : s.client.watching.isSome = true) {cues : List Cue}
    (h : ∀ cue ∈ cues, cue.isBeside s.client = true) :
    s.client.WatchesOn (cues.flatMap (Cue.edits s.client)) (s.answerAll cues).shell.client := by
  induction cues using List.reverseRecOn with
  | nil => exact s.client.watchesOn_self
  | append_singleton cues cue ih =>
    have hbefore := ih fun other hother => h other (List.mem_append_left _ hother)
    have hlast : cue.isBeside (s.answerAll cues).shell.client = true := by
      rw [Cue.isBeside_congr hbefore.watching]
      exact h cue (by simp)
    have hone := watchesOn_answer (hbefore.watching.symm ▸ hw) hlast
    rw [Cue.edits_congr hbefore.watching] at hone
    rw [answerAll_snoc, List.flatMap_append, List.flatMap_singleton]
    exact hbefore.trans hone

end Shell

/-! ## The law of guarding -/

/-- While a shell watches, a line that is typed, and that does not begin or end watching, leaves the
present script as it is exactly if its request spares the script. It does so if what is typed is no
request, or not the beginning of a name by which the script can be changed. All along the shell watches
the same session, and its timeline is made by the presenter's actions and those of the requests, in
order; so if nothing typed is about the script, it is the timeline of one who types nothing. -/
theorem watching_shell_turns_only_lines_away (s : Shell) (w : Watching)
    (hw : s.client.watching = some w) :
    (∀ line outcome, (Request.ofLine line).isOfWatching = false →
      ((s.answer (.line line outcome)).shell.client.present = s.client.present ↔
        (Request.ofLine line).Spares s.client.store.script outcome) ∧
      ((∀ typed ∈ Request.typedName? line, ∀ name ∈ Request.editNames, ¬ typed <+: name.toList) →
        (Cue.line line outcome).IsIdle)) ∧
    ∀ cues : List Cue, (∀ cue ∈ cues, cue.isBeside s.client = true) →
      let later := (s.answerAll cues).shell.client
      later.watching = some w ∧
      later.store.script = s.client.store.script.reduceAll (cues.flatMap (Cue.edits s.client)) ∧
      ((∀ cue ∈ cues, cue.IsIdle) →
        later.store.script = (s.client.hearAll (cues.filterMap Cue.remote?)).client.store.script) := by
  have hsome : s.client.watching.isSome = true := by rw [hw]; rfl
  refine ⟨?_, ?_⟩
  · intro line outcome hline
    refine ⟨?_, fun hname => Request.edits_ofLine_eq_nil hname outcome⟩
    have hedits := (Shell.watchesOn_handle hsome hline outcome).script
    have hpresent := Request.present_reduceAll_edits_eq_iff s.client.store.script outcome (.ofLine line)
    rw [← hedits] at hpresent
    exact hpresent
  · intro cues hcues later
    have hlater := Shell.watchesOn_answerAll hsome hcues
    refine ⟨hlater.watching.trans hw, hlater.script, ?_⟩
    intro hidle
    rw [(s.client.repeats_hearAll _).store, Store.script_foldl_dispatch, ← Cue.flatMap_edits hidle]
    exact hlater.script

/-- A shell that watches. -/
def spectator : Shell := .ofClient ⟨.default, .empty, none, some ⟨1, "ab-12"⟩, 1⟩

/-- Two lines of the presenter, and in between a line of script, a request that is cut short and a
request that there is not. -/
def spectating : List Cue :=
  [.news (.remote 1 (.submit "forward 10\n")), .line "right 45" (.ok ""), .line " /sav f" (.ok ""),
    .line "/undoing" (.ok ""), .news (.remote 1 (.submit "right 90\n"))]

/-- What was typed makes no difference to what is watched, but a lone slash takes the last line of the
presenter back. -/
theorem slash_is_not_turned_away :
    let later := (spectator.answerAll spectating).shell
    (spectator.client.watching = some ⟨1, "ab-12"⟩ ∧
      (∀ cue ∈ spectating, cue.isBeside spectator.client = true) ∧
      (∀ typed ∈ Request.typedName? "/undoing", ∀ name ∈ Request.editNames, ¬ typed <+: name.toList)) ∧
    later.client.store.script = (spectator.client.hearAll
      [(1, .submit "forward 10\n"), (1, .submit "right 90\n")]).client.store.script ∧
    later.client.watching = some ⟨1, "ab-12"⟩ ∧ (Request.ofLine "/").isOfWatching = false ∧
    (later.answer (.line "/" (.ok ""))).shell.client.present ≠ later.client.present := by
  intro later
  have hw : spectator.client.watching = some ⟨1, "ab-12"⟩ := rfl
  have hbeside : ∀ cue ∈ spectating, cue.isBeside spectator.client = true := by decide +kernel
  have hname : ∀ typed ∈ Request.typedName? "/undoing", ∀ name ∈ Request.editNames,
      ¬ typed <+: name.toList := by decide +kernel
  obtain ⟨hlines, hruns⟩ := watching_shell_turns_only_lines_away spectator _ hw
  have hundoing : (Cue.line "/undoing" (.ok "")).IsIdle :=
    (hlines "/undoing" (.ok "") (by decide +kernel)).2 hname
  have hothers : (Cue.line "right 45" (.ok "")).IsIdle ∧ (Cue.line " /sav f" (.ok "")).IsIdle := by
    unfold Cue.IsIdle
    decide +kernel
  have hidle : ∀ cue ∈ spectating, cue.IsIdle := by
    simp only [spectating, List.mem_cons, List.not_mem_nil, or_false]
    rintro cue (rfl | rfl | rfl | rfl | rfl)
    · exact trivial
    · exact hothers.1
    · exact hothers.2
    · exact hundoing
    · exact trivial
  obtain ⟨hwatching, -, hheard⟩ := hruns spectating hbeside
  have hslash : Request.ofLine "/" = .undo := by decide +kernel
  have hcounts : later.client.store.script.past.head?.map Script.nextId = some 1 ∧
      later.client.store.script.present.nextId = 2 := by decide +kernel
  have hspoils : ¬ (Request.ofLine "/").Spares later.client.store.script (.ok "") := by
    rw [hslash]
    intro hspares
    obtain ⟨previous, hprevious, hid⟩ := Option.map_eq_some_iff.mp hcounts.1
    rw [hspares previous hprevious, hcounts.2] at hid
    cases hid
  have hundo : (Request.ofLine "/").isOfWatching = false := by rw [hslash]; rfl
  refine ⟨⟨hw, hbeside, hname⟩, hheard hidle, hwatching, hundo, ?_⟩
  obtain ⟨hline, -⟩ := watching_shell_turns_only_lines_away later _ hwatching
  exact fun heq => hspoils ((hline "/" (.ok "") hundo).1.mp heq)

end TurtleScript
