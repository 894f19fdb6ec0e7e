-- What the shell prints of the drawing. One who reads its notices keeps a copy
-- of the drawing log, and the copy has always as many entries as the log. It
-- has the same entries as long as the drawing is only added to or cut at its
-- end; the shell compares no more than sizes.
import TurtleScript.Proofs.Answering
import TurtleScript.Proofs.Neighbouring

namespace TurtleScript

/-! ## Copies of the drawing log -/

/-- The drawing log as it is displayed. -/
def Script.displayed (s : Script) : List String := s.drawing.log.toList.map DrawCommand.describe

/-- What a notice makes of a copy of the displayed log: it cuts the copy or adds an entry. -/
def Notice.copied (copy : List String) : Notice → List String
  | .rewound size => copy.take size
  | .drawn command => copy ++ [command.describe]
  | _ => copy

/-- What notices make of a copy, one after the other. -/
def Notice.copiedAll (copy : List String) (notices : List Notice) : List String :=
  notices.foldl Notice.copied copy

/-- The second log is the first one with more at its end, or with less. -/
def AddedOrCut (log next : List String) : Prop := log <+: next ∨ next <+: log

/-- A copy that is cut to the size of a log and given what the log has beyond its own size. -/
def patched (copy log : List String) : List String := copy.take log.length ++ log.drop copy.length

theorem Notice.copiedAll_append (copy : List String) (xs ys : List Notice) :
    copiedAll copy (xs ++ ys) = copiedAll (copiedAll copy xs) ys := List.foldl_append

theorem Notice.copiedAll_of_not_isOfDrawing {notices : List Notice}
    (h : ∀ n ∈ notices, n.isOfDrawing = false) (copy : List String) :
    copiedAll copy notices = copy := by
  induction notices with
  | nil => rfl
  | cons n notices ih =>
    have hn : copied copy n = copy := by
      cases n with
      | rewound | drawn => exact absurd (h _ List.mem_cons_self) (by simp [isOfDrawing])
      | _ => rfl
    have hrest := ih fun m hm => h m (List.mem_cons_of_mem _ hm)
    unfold copiedAll at hrest ⊢
    rw [List.foldl_cons, hn, hrest]

theorem length_patched (copy log : List String) : (patched copy log).length = log.length := by
  unfold patched
  rw [List.length_append, List.length_take, List.length_drop]
  omega

/-- The patch is right if what it does not look at is right. -/
theorem patched_eq_iff (copy log : List String) :
    patched copy log = log ↔ copy.take log.length = log.take copy.length := by
  have hlog : log.take copy.length ++ log.drop copy.length = log := List.take_append_drop ..
  unfold patched
  conv_lhs => rhs; rw [← hlog]
  rw [List.append_cancel_right_eq]

theorem patched_eq_iff_addedOrCut (log next : List String) :
    patched log next = next ↔ AddedOrCut log next := by
  rw [patched_eq_iff]
  constructor
  · intro h
    rcases Nat.le_total log.length next.length with hle | hle
    · rw [List.take_of_length_le hle] at h
      exact Or.inl (h ▸ List.take_prefix _ _)
    · rw [List.take_of_length_le hle] at h
      exact Or.inr (h ▸ List.take_prefix _ _)
  · rintro (⟨more, rfl⟩ | ⟨more, rfl⟩)
    · rw [List.take_left, List.take_of_length_le (by simp)]
    · rw [List.take_left, List.take_of_length_le (by simp)]

/-! ## What is printed in one turn -/

theorem Notice.copiedAll_drawn (copy : List String) (commands : List DrawCommand) :
    copiedAll copy (commands.map .drawn) = copy ++ commands.map DrawCommand.describe := by
  induction commands generalizing copy with
  | nil => simp [copiedAll]
  | cons command commands ih =>
    have hrest := ih (copy ++ [command.describe])
    unfold copiedAll at hrest ⊢
    rw [List.map_cons, List.foldl_cons, copied, hrest, List.append_assoc]
    rfl

theorem Notice.copiedAll_drawingNotices (copy : List String) (log : List DrawCommand) :
    copiedAll copy (Shell.drawingNotices copy.length log) =
      patched copy (log.map DrawCommand.describe) := by
  have hcut : copiedAll copy (if log.length < copy.length then [.rewound log.length] else []) =
      copy.take log.length := by
    split
    · rfl
    · next hle => exact (List.take_of_length_le (Nat.le_of_not_lt hle)).symm
  unfold Shell.drawingNotices patched
  rw [copiedAll_append, hcut, copiedAll_drawn, List.length_map, List.map_drop]

namespace Shell

/-- The drawing log of the shell's script as it is displayed. -/
def displayed (s : Shell) : List String := s.client.present.displayed

/-- The shell goes by the size of the copy, and this is the size of the log. -/
structure InStep (s : Shell) (copy : List String) : Prop where
  printed : s.printed = copy.length
  length : copy.length = s.displayed.length

variable {s : Shell} {copy : List String}

/-- An event patches the copy. -/
theorem InStep.copiedAll_process (h : s.InStep copy) (event : Event) :
    Notice.copiedAll copy (s.process event).notices =
      patched copy (s.process event).shell.displayed := by
  have hwords : ∀ n ∈ (s.client.process event).dispatched.flatMap
      (noticesOf (s.client.process event).client.present), n.isOfDrawing = false := by
    intro n hn
    obtain ⟨action, -, hn⟩ := List.mem_flatMap.mp hn
    cases action with
    | submit text =>
      obtain ⟨description, -, rfl⟩ := List.mem_map.mp hn
      rfl
    | startedSharing | stoppedSharing | startedWatching | stoppedWatching =>
      obtain rfl := List.mem_singleton.mp hn
      rfl
    | _ => cases hn
  unfold process report
  rw [Notice.copiedAll_append, Notice.copiedAll_of_not_isOfDrawing hwords, h.printed,
    Notice.copiedAll_drawingNotices]
  rfl

theorem InStep.process (h : s.InStep copy) (event : Event) :
    (s.process event).shell.InStep (Notice.copiedAll copy (s.process event).notices) := by
  rw [h.copiedAll_process]
  refine ⟨?_, length_patched _ _⟩
  rw [length_patched]
  simp [Shell.process, report, displayed, Script.displayed]

/-- An event keeps a copy right if it adds to the log or cuts it. -/
theorem InStep.copiedAll_process_eq_iff (h : s.InStep copy) (hright : copy = s.displayed)
    (event : Event) :
    Notice.copiedAll copy (s.process event).notices = (s.process event).shell.displayed ↔
      AddedOrCut s.displayed (s.process event).shell.displayed := by
  rw [h.copiedAll_process, ← hright, patched_eq_iff_addedOrCut]

end Shell

/-! ## What events do to the drawing -/

theorem Script.Agrees.displayed {a b : Script} (h : a.Agrees b) :
    AddedOrCut a.displayed b.displayed :=
  h.imp (·.map DrawCommand.describe) (·.map DrawCommand.describe)

namespace Client

variable {c : Client} {event : Event}

/-- An event that does not ask to undo or redo adds to the drawing or clears it. -/
theorem agrees_process (c : Client) (event : Event) (hundo : event.action? ≠ some .undo)
    (hredo : event.action? ≠ some .redo) : c.present.Agrees (c.process event).client.present := by
  unfold present Store.present
  cases c.stirs_process event with
  | rests hscript =>
    rw [hscript]
    exact Script.agrees_refl _
  | @acts action hasked hscript =>
    rw [hscript]
    refine c.store.agrees_dispatch ?_ ?_
    · rintro rfl
      exact hundo hasked
    · rintro rfl
      exact hredo hasked
  | clears hscript =>
    rw [hscript]
    exact c.store.agrees_dispatch (by simp) (by simp)

/-- Where the timeline is in line, every event adds to the drawing or takes from its end. -/
theorem agrees_process_of_isInLine (h : c.store.IsInLine) (event : Event) :
    c.present.Agrees (c.process event).client.present := by
  unfold present Store.present
  cases c.stirs_process event with
  | rests hscript =>
    rw [hscript]
    exact Script.agrees_refl _
  | acts _ hscript =>
    rw [hscript]
    exact h.agrees _
  | clears hscript =>
    rw [hscript]
    exact h.agrees .reset

theorem isInLine_process (h : c.store.IsInLine) (event : Event)
    (hquiet : ∀ text, event.action? = some (.submit text) → c.store.IsQuiet text) :
    (c.process event).client.store.IsInLine := by
  unfold Store.IsInLine
  cases c.stirs_process event with
  | rests hscript =>
    rw [hscript]
    exact h
  | acts hasked hscript =>
    rw [hscript]
    exact h.dispatch fun text ht => hquiet text (ht ▸ hasked)
  | clears hscript =>
    rw [hscript]
    exact h.dispatch (by simp)

theorem isSettled_dispatch_submit (h : c.store.IsSettled) (text : String) :
    (c.dispatch (.submit text)).client.store.IsSettled := by
  have hstirs := c.stirs_process (.action (.submit text))
  have hprocess : c.process (.action (.submit text)) = c.dispatch (.submit text) := rfl
  unfold Store.IsSettled Store.present
  rw [hprocess] at hstirs
  cases hstirs with
  | rests hscript =>
    rw [hscript]
    exact h
  | acts hasked hscript =>
    rw [hscript, ← Option.some.inj hasked]
    exact h.dispatch_submit text
  | clears hscript =>
    rw [hscript]
    exact c.store.isSettled_dispatch_reset

end Client

/-! ## What a shell answers -/

/-- A shell is asked to move along the timeline. -/
def Cue.moves (cue : Cue) : Bool := cue.action? = some .undo || cue.action? = some .redo

namespace Shell

variable {s : Shell} {copy : List String} {cue : Cue}

theorem InStep.dispatchAll (h : s.InStep copy) (actions : List Action) :
    (s.dispatchAll actions).shell.InStep
      (Notice.copiedAll copy (s.dispatchAll actions).notices) := by
  induction actions generalizing s copy with
  | nil => exact h
  | cons action actions ih =>
    have hfirst := h.process (.action action)
    rw [dispatchAll_cons]
    simp only [Reply.andThen, Notice.copiedAll_append]
    exact ih hfirst

/-- A right copy stays right while nothing is undone or redone. -/
theorem InStep.copiedAll_dispatchAll (h : s.InStep copy) (hright : copy = s.displayed)
    {actions : List Action} (hmoves : .undo ∉ actions ∧ .redo ∉ actions) :
    Notice.copiedAll copy (s.dispatchAll actions).notices =
      (s.dispatchAll actions).shell.displayed := by
  induction actions generalizing s copy with
  | nil => exact hright
  | cons action actions ih =>
    simp only [List.mem_cons, not_or] at hmoves
    obtain ⟨⟨hundo, hundos⟩, hredo, hredos⟩ := hmoves
    have hagrees : s.client.present.Agrees (s.dispatch action).shell.client.present :=
      s.client.agrees_process (.action action) (fun heq => hundo (Option.some.inj heq).symm)
        fun heq => hredo (Option.some.inj heq).symm
    have hfirst := (h.copiedAll_process_eq_iff hright (.action action)).mpr hagrees.displayed
    rw [dispatchAll_cons]
    simp only [Reply.andThen, Notice.copiedAll_append]
    exact ih (h.process (.action action)) hfirst ⟨hundos, hredos⟩

/-- After a script is loaded the copy is right, whatever it was before. -/
theorem InStep.copiedAll_loading (h : s.InStep copy) (script : Script) :
    Notice.copiedAll copy (s.dispatchAll (loading script)).notices =
      (s.dispatchAll (loading script)).shell.displayed := by
  have hempty : (s.dispatch .reset).shell.displayed = [] := by
    have hedit : Action.isEdit .reset = true := rfl
    have hpresent : (s.dispatch .reset).shell.client.present = .empty :=
      s.client.present_dispatch hedit
    rw [displayed, hpresent]
    rfl
  have hreset := h.process (.action .reset)
  -- A wrong copy has the right size too, and there is only one copy of an empty log.
  have hcopy : Notice.copiedAll copy (s.dispatch .reset).notices =
      (s.dispatch .reset).shell.displayed := by
    rw [hempty]
    refine List.eq_nil_of_length_eq_zero (hreset.length.trans ?_)
    exact congrArg List.length hempty
  unfold loading
  rw [List.cons_append, dispatchAll_cons]
  simp only [Reply.andThen, Notice.copiedAll_append]
  exact hreset.copiedAll_dispatchAll hcopy (by simp)

theorem InStep.answer (h : s.InStep copy) (cue : Cue) :
    (s.answer cue).shell.InStep (Notice.copiedAll copy (s.answer cue).notices) := by
  have hanswers := s.answers_answer cue
  generalize s.answer cue = r at hanswers
  cases hanswers with
  | tells hquiet =>
    rw [say, Notice.copiedAll_of_not_isOfDrawing hquiet]
    exact h
  | turns => exact h.process _
  | loads script => exact h.dispatchAll _

/-- A right copy stays so, unless undo or redo leads to another drawing. -/
theorem InStep.copiedAll_answer_eq_iff (h : s.InStep copy) (hright : copy = s.displayed)
    (cue : Cue) :
    Notice.copiedAll copy (s.answer cue).notices = (s.answer cue).shell.displayed ↔
      (cue.moves = true → AddedOrCut s.displayed (s.answer cue).shell.displayed) := by
  have hanswers := s.answers_answer cue
  generalize s.answer cue = r at hanswers
  cases hanswers with
  | tells hquiet =>
    rw [say, Notice.copiedAll_of_not_isOfDrawing hquiet]
    exact ⟨fun _ _ => Or.inl List.prefix_rfl, fun _ => hright⟩
  | @turns event hasked =>
    rw [h.copiedAll_process_eq_iff hright]
    by_cases hmoves : cue.moves = true
    · exact ⟨fun hagrees _ => hagrees, fun hagrees => hagrees hmoves⟩
    · have hagrees : s.client.present.Agrees (s.process event).shell.client.present := by
        refine s.client.agrees_process event ?_ ?_ <;>
          · rw [hasked]
            intro heq
            simp [Cue.moves, heq] at hmoves
      exact ⟨fun _ hmoves' => absurd hmoves' hmoves, fun _ => hagrees.displayed⟩
  | loads script hasked =>
    have hmoves : cue.moves = false := by simp [Cue.moves, hasked]
    exact ⟨fun _ h => absurd (hmoves ▸ h) (by decide), fun _ => h.copiedAll_loading script⟩

/-- Submissions in a row keep the timeline in line from where no statement waits: when one of them
draws without giving out an id, an earlier one has given out an id and left nothing to redo. -/
theorem isInLine_dispatchAll (h : s.client.store.IsInLine) (hsettled : s.client.store.IsSettled)
    (texts : List String) {last : Action} (hlast : ∀ text, last ≠ .submit text) :
    (s.dispatchAll (texts.map .submit ++ [last])).shell.client.store.IsInLine := by
  induction texts generalizing s with
  | nil =>
    have hone := Client.isInLine_process h (.action last)
      fun text ht => absurd (Option.some.inj ht) (hlast text)
    exact hone
  | cons text texts ih =>
    have hone := Client.isInLine_process h (.action (.submit text))
      fun text _ => hsettled.isQuiet text
    have hstill := Client.isSettled_dispatch_submit hsettled text
    rw [List.map_cons, List.cons_append, dispatchAll_cons]
    exact ih (s := (s.dispatch (.submit text)).shell) hone hstill

theorem isInLine_loading (h : s.client.store.IsInLine) (script : Script) :
    (s.dispatchAll (loading script)).shell.client.store.IsInLine := by
  have hreset := Client.isInLine_process h (.action .reset) fun text ht => by cases ht
  have hsettled := s.client.store.isSettled_dispatch_reset
  have hlast : ∀ text, Action.rename script.name ≠ .submit text := by simp
  have hrest := isInLine_dispatchAll (s := (s.dispatch .reset).shell) hreset hsettled
    (submissions script.tokens.toList) hlast
  unfold loading
  rw [List.cons_append, dispatchAll_cons]
  exact hrest

theorem isInLine_answer (h : s.client.store.IsInLine)
    (hquiet : ∀ text, cue.action? = some (.submit text) → s.client.store.IsQuiet text) :
    (s.answer cue).shell.client.store.IsInLine := by
  have hanswers := s.answers_answer cue
  generalize s.answer cue = r at hanswers
  cases hanswers with
  | tells => exact h
  | turns hasked => exact Client.isInLine_process h _ fun text ht => hquiet text (hasked ▸ ht)
  | loads script => exact isInLine_loading h script

/-- Where the timeline is in line, a shell that undoes or redoes adds to the drawing or takes from
its end. -/
theorem displayed_answer_of_isInLine (h : s.client.store.IsInLine) (hmoves : cue.moves = true) :
    AddedOrCut s.displayed (s.answer cue).shell.displayed := by
  have hanswers := s.answers_answer cue
  generalize s.answer cue = r at hanswers
  cases hanswers with
  | tells => exact Or.inl List.prefix_rfl
  | @turns event hasked =>
    have hagrees : s.client.present.Agrees (s.process event).shell.client.present :=
      Client.agrees_process_of_isInLine h event
    exact hagrees.displayed
  | loads script hasked => simp [Cue.moves, hasked] at hmoves

/-- The copy of one who has read all notices, and knew the log at the start. -/
def copyAfter (s : Shell) (cues : List Cue) : List String :=
  Notice.copiedAll s.displayed (s.answerAll cues).notices

theorem copyAfter_snoc (s : Shell) (cues : List Cue) (cue : Cue) :
    s.copyAfter (cues ++ [cue]) =
      Notice.copiedAll (s.copyAfter cues) ((s.answerAll cues).shell.answer cue).notices := by
  unfold copyAfter
  rw [answerAll_snoc, Reply.andThen, Notice.copiedAll_append]

theorem inStep_answerAll (hs : s.printed = s.displayed.length) (cues : List Cue) :
    (s.answerAll cues).shell.InStep (s.copyAfter cues) := by
  induction cues using List.reverseRecOn with
  | nil => exact ⟨hs, rfl⟩
  | append_singleton cues cue ih =>
    rw [copyAfter_snoc, answerAll_snoc]
    exact ih.answer cue

theorem answerAll_take_succ (s : Shell) {cues : List Cue} {k : Nat} (hcue : cues[k]? = some cue) :
    s.answerAll (cues.take (k + 1)) = (s.answerAll (cues.take k)).andThen (·.answer cue) := by
  rw [List.take_add_one, hcue, Option.toList_some, answerAll_snoc]

theorem copyAfter_take_succ (s : Shell) {cues : List Cue} {k : Nat} (hcue : cues[k]? = some cue) :
    s.copyAfter (cues.take (k + 1)) =
      Notice.copiedAll (s.copyAfter (cues.take k))
        ((s.answerAll (cues.take k)).shell.answer cue).notices := by
  rw [List.take_add_one, hcue, Option.toList_some, copyAfter_snoc]

/-- The copy is right all along if and only if every undo and redo adds to the log or cuts it. -/
theorem copyAfter_eq_iff (hs : s.printed = s.displayed.length) (cues : List Cue) :
    (∀ k, s.copyAfter (cues.take k) = (s.answerAll (cues.take k)).shell.displayed) ↔
      ∀ k cue, cues[k]? = some cue → cue.moves = true →
        AddedOrCut (s.answerAll (cues.take k)).shell.displayed
          (s.answerAll (cues.take (k + 1))).shell.displayed := by
  constructor
  · intro hright k cue hcue
    have hlater := hright (k + 1)
    rw [copyAfter_take_succ s hcue, answerAll_take_succ s hcue] at hlater
    rw [answerAll_take_succ s hcue]
    exact ((inStep_answerAll hs _).copiedAll_answer_eq_iff (hright k) cue).mp hlater
  · intro hmoves k
    induction k with
    | zero => rfl
    | succ k ih =>
      cases hcue : cues[k]? with
      | none =>
        rw [List.take_add_one, hcue, Option.toList_none, List.append_nil]
        exact ih
      | some cue =>
        have hagrees := hmoves k cue hcue
        rw [answerAll_take_succ s hcue] at hagrees
        rw [copyAfter_take_succ s hcue, answerAll_take_succ s hcue]
        exact ((inStep_answerAll hs _).copiedAll_answer_eq_iff ih cue).mpr hagrees

theorem isInLine_answerAll (h : s.client.store.IsInLine) {cues : List Cue}
    (hquiet : ∀ k cue text, cues[k]? = some cue → cue.action? = some (.submit text) →
      (s.answerAll (cues.take k)).shell.client.store.IsQuiet text) (k : Nat) :
    (s.answerAll (cues.take k)).shell.client.store.IsInLine := by
  induction k with
  | zero => exact h
  | succ k ih =>
    cases hcue : cues[k]? with
    | none =>
      rw [List.take_add_one, hcue, Option.toList_none, List.append_nil]
      exact ih
    | some cue =>
      rw [answerAll_take_succ s hcue]
      exact isInLine_answer ih fun text htext => hquiet k cue text hcue htext

end Shell

/-! ## The law of printing -/

/-- Whatever a shell is given, one who reads its notices has a copy of the displayed drawing log
that is as long as the log. The copy has been right all the time just if every undo and redo has
added to the log or cut it; and this is so if no submission without a new id has drawn anything
while there was something to redo. -/
theorem printed_log_is_right_while_moves_add_or_cut (config : Config) (script : Script)
    (cues : List Cue) :
    let s := Shell.ofClient (.new config (.withScript script))
    let copy (k : Nat) := s.copyAfter (cues.take k)
    let shell (k : Nat) := (s.answerAll (cues.take k)).shell
    (∀ k, (copy k).length = (shell k).displayed.length) ∧
    ((∀ k, copy k = (shell k).displayed) ↔ ∀ k cue, cues[k]? = some cue → cue.moves = true →
      AddedOrCut (shell k).displayed (shell (k + 1)).displayed) ∧
    ((∀ k cue text, cues[k]? = some cue → cue.action? = some (.submit text) →
      (shell k).client.store.IsQuiet text) → ∀ k, copy k = (shell k).displayed) := by
  intro s copy shell
  have hs : s.printed = s.displayed.length := by
    simp [s, Shell.ofClient, Shell.displayed, Script.displayed]
  refine ⟨fun k => (Shell.inStep_answerAll hs _).length, Shell.copyAfter_eq_iff hs cues, ?_⟩
  intro hquiet
  refine (Shell.copyAfter_eq_iff hs cues).mpr ?_
  intro k cue hcue hmoves
  have hline : (shell k).client.store.IsInLine :=
    Shell.isInLine_answerAll (Store.isInLine_withScript script) hquiet k
  rw [Shell.answerAll_take_succ s hcue]
  exact Shell.displayed_answer_of_isInLine hline hmoves

/-- A turn is finished on a later line, two statements are taken back and redone with an empty line
in between, and a further one is taken back. -/
def typedInOrder : List Cue :=
  ["rt", "90", "fd 1 bk 2", "/undo", "", "/redo", "fd 5", "/undo"].map (.line · (.ok ""))

theorem typed_in_order_is_printed_rightly :
    let shell (k : Nat) :=
      ((Shell.ofClient (.new .default .empty)).answerAll (typedInOrder.take k)).shell
    (∀ k cue text, typedInOrder[k]? = some cue → cue.action? = some (.submit text) →
      (shell k).client.store.IsQuiet text) ∧
    (∀ k, (Shell.ofClient (.new .default .empty)).copyAfter (typedInOrder.take k) =
      (shell k).displayed) ∧
    (List.range 9).map (fun k => (shell k).displayed.length) = [0, 0, 1, 3, 1, 1, 3, 4, 3] := by
  intro shell
  have hsettled : ∀ k < 8, (shell k).client.store.script.future = [] ∨
      (shell k).client.store.present.isIncomplete = false := by
    have hbool : ∀ k < 8, ((shell k).client.store.script.future.isEmpty ||
        !(shell k).client.store.present.isIncomplete) = true := by decide +kernel
    simpa using hbool
  have hquiet : ∀ k cue text, typedInOrder[k]? = some cue → cue.action? = some (.submit text) →
      (shell k).client.store.IsQuiet text := by
    intro k cue text hcue _
    have hk : k < 8 := (List.getElem?_eq_some_iff.mp hcue).1
    exact Store.IsSettled.isQuiet (hsettled k hk) text
  have hlaw := printed_log_is_right_while_moves_add_or_cut .default .empty typedInOrder
  exact ⟨hquiet, hlaw.2.2 hquiet, by decide +kernel⟩

end TurtleScript
