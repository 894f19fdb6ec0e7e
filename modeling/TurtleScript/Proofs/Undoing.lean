-- What undo takes back. The entries of a timeline are submissions and not
-- statements: undo takes back all statements that one submission began, which
-- may be several, or none where it went on with a block. It is a single
-- statement exactly where each submission begins one.
import TurtleScript.Proofs.Revising

namespace TurtleScript

namespace Store

/-! ## Along the timeline -/

theorem script_dispatch_undo (s : Store) : (s.dispatch .undo).script = s.script.undo := rfl

theorem exists_submitted_undo {actions : List Action} (hreset : .reset ∉ actions)
    (h : (after actions).script.canUndo = true) :
    ∃ before text, Submitted actions ((after actions).dispatch .undo).present (after actions).present
      before text :=
  Timeline.related_undo (isChain_submitted hreset) h

theorem exists_submitted_redo {actions : List Action} (hreset : .reset ∉ actions)
    (h : (after actions).script.canRedo = true) :
    ∃ before text, Submitted actions (after actions).present ((after actions).dispatch .redo).present
      before text :=
  Timeline.related_redo (isChain_submitted hreset) h

/-- Redo after undo restores the timeline. -/
theorem script_redo_undo {s : Store} (h : s.script.canUndo = true) :
    ((s.dispatch .undo).dispatch .redo).script = s.script :=
  Timeline.redo_undo (by simpa [Timeline.canUndo] using h)

/-! ## Single statements -/

/-- If there is something to undo, then undo takes back one statement and redo brings it back. -/
def RevertsOne (s : Store) : Prop :=
  s.script.canUndo = true →
    s.present.statementCount = (s.dispatch .undo).present.statementCount + 1 ∧
      ((s.dispatch .undo).dispatch .redo).present.statementCount =
        (s.dispatch .undo).present.statementCount + 1

/-- A submission that gives out an id is what undo takes back. -/
theorem undo_dispatch_submit {s : Store} {text : String}
    (h : (s.present.submit text).nextId ≠ s.present.nextId) :
    (s.dispatch (.submit text)).script.canUndo = true ∧
      (s.dispatch (.submit text)).present = s.present.submit text ∧
      ((s.dispatch (.submit text)).dispatch .undo).present = s.present := by
  have hnew : (s.dispatch (.submit text)).script =
      ⟨s.present :: s.script.past, s.present.submit text, []⟩ := if_neg h
  refine ⟨?_, ?_, ?_⟩
  · simp [hnew, Timeline.canUndo]
  · simp [present, hnew]
  · simp [present, script_dispatch_undo, hnew, Timeline.undo]

end Store

/-! ## The law of undoing -/

/-- In any run without a reset, undo takes back all statements that one submission of the run began,
and redo brings back as many; undo and redo restore the timeline. Undo takes back a single
statement, all along the run, exactly if every submission that gave out an id began one. -/
theorem undo_takes_back_a_submission (actions : List Action) (h : .reset ∉ actions) :
    let s := Store.after actions
    (s.script.canUndo = true →
      (∃ before text, Store.Submitted actions (s.dispatch .undo).present s.present before text) ∧
        ((s.dispatch .undo).dispatch .redo).script = s.script) ∧
    (s.script.canRedo = true →
      ∃ before text, Store.Submitted actions s.present (s.dispatch .redo).present before text) ∧
    ((∀ k, (Store.after (actions.take k)).RevertsOne) ↔
      ∀ before text, Store.Made actions before (.submit text) → before.begun text = 1) := by
  intro s
  refine ⟨?_, ?_, ?_⟩
  · exact fun hundo => ⟨Store.exists_submitted_undo h hundo, Store.script_redo_undo hundo⟩
  · exact Store.exists_submitted_redo h
  · constructor
    · rintro hone before text ⟨k, hk, rfl, hne⟩
      have hnext := hone (k + 1)
      rw [Store.after_take_succ hk] at hnext
      obtain ⟨hundo, hpresent, hback⟩ := Store.undo_dispatch_submit hne
      have hcount := (hnext hundo).1
      rw [hpresent, hback, Script.statementCount_submit_of_ne hne] at hcount
      exact Nat.add_left_cancel hcount
    · intro hone k hundo
      have hreset : Action.reset ∉ actions.take k := fun hmem => h (List.mem_of_mem_take hmem)
      obtain ⟨before, text, hmade, -, -, hcount, -⟩ := Store.exists_submitted_undo hreset hundo
      rw [hone before text hmade.of_take] at hcount
      have hredo := congrArg Timeline.present (Store.script_redo_undo hundo)
      exact ⟨hcount, (congrArg Script.statementCount hredo).trans hcount⟩

/-- Two statements on a line, and a block that is closed on a later one. -/
def unevenLines : List Action :=
  [.submit "forward 10 right 90\n", .submit "repeat 2 [\n", .submit "penup ]\n", .undo, .undo]

theorem two_statements_are_taken_back :
    Action.reset ∉ unevenLines ∧ (Store.after unevenLines).script.canUndo = true ∧
      (Store.after unevenLines).present.statementCount = 2 ∧
      ((Store.after unevenLines).dispatch .undo).present.statementCount = 0 ∧
      ∃ before text, Store.Made unevenLines before (.submit text) ∧ before.begun text = 2 := by
  have hreset : Action.reset ∉ unevenLines := by decide
  have hundo : (Store.after unevenLines).script.canUndo = true := by decide +kernel
  have htwo : (Store.after unevenLines).present.statementCount = 2 := by decide +kernel
  have hnone : ((Store.after unevenLines).dispatch .undo).present.statementCount = 0 := by
    decide +kernel
  obtain ⟨⟨before, text, hmade, -, -, hcount, -⟩, -⟩ :=
    (undo_takes_back_a_submission unevenLines hreset).1 hundo
  refine ⟨hreset, hundo, htwo, hnone, before, text, hmade, ?_⟩
  rw [htwo, hnone, Nat.zero_add] at hcount
  exact hcount.symm

end TurtleScript
