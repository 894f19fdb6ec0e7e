-- What redo adds. A submission without a new id takes the place of the present
-- entry and leaves the future as it is, even if it finishes a statement and
-- draws. So each entry goes on with what the entry before it had drawn when it
-- was submitted, but with what that entry shows now only as long as nothing
-- else was drawn there instead.
import TurtleScript.Proofs.Revising

namespace TurtleScript

/-! ## Timelines that draw on -/

/-- The second script goes on with the drawing of the first. -/
def Script.DrawsOn (a b : Script) : Prop := a.drawing.Continues b.drawing

instance : Trans Script.DrawsOn Script.DrawsOn Script.DrawsOn := ⟨Drawing.Continues.trans⟩

/-- Every entry of the timeline goes on with the drawings of all entries before it. -/
def Store.DrawsOn (s : Store) : Prop := s.script.entries.Pairwise Script.DrawsOn

/-- If the submission of a text gives out no id, then the entry that is redone next goes on with
the drawing that it leaves. -/
def Store.Fits (s : Store) (text : String) : Prop :=
  (s.present.submit text).nextId = s.present.nextId →
    ∀ b ∈ s.script.future.head?, (s.present.submit text).DrawsOn b

theorem Store.drawsOn_iff (s : Store) : s.DrawsOn ↔ s.script.entries.IsChain Script.DrawsOn :=
  List.isChain_iff_pairwise.symm

/-! ## One action -/

/-- A timeline that draws on does so after every action but a reset, if a submission fits. -/
theorem Store.DrawsOn.dispatch {s : Store} (h : s.DrawsOn) {action : Action} (hreset : action ≠ .reset)
    (hfits : ∀ text, action = .submit text → s.Fits text) : (s.dispatch action).DrawsOn := by
  rw [drawsOn_iff] at h ⊢
  obtain ⟨⟨-, hpast⟩, hfuture, -⟩ := (Timeline.isChain_entries_iff _).mp h
  have hgrows : s.present.DrawsOn (s.present.apply action) := Script.continues_apply _ hreset
  have hedit : (∀ b ∈ s.script.future.head?, (s.present.apply action).nextId = s.present.nextId →
        (s.present.apply action).DrawsOn b) →
      (s.script.edit Script.nextId (s.present.apply action)).entries.IsChain Script.DrawsOn := by
    intro hnext
    refine Timeline.isChain_entries_edit Script.nextId h (fun _ => hgrows) ?_
    intro hsame
    exact ⟨fun a ha => Drawing.Continues.trans (hpast a ha) hgrows, fun b hb => hnext b hb hsame⟩
  cases action with
  | undo => exact Timeline.entries_undo s.script ▸ h
  | redo => exact Timeline.entries_redo s.script ▸ h
  | reset => exact absurd rfl hreset
  | submit text => exact hedit fun b hb hsame => hfits text rfl hsame b hb
  | _ => exact hedit fun b hb _ => hfuture b hb

/-- Where a submission does not fit, the timeline no longer draws on. -/
theorem Store.DrawsOn.fits {s : Store} {text : String} (h : (s.dispatch (.submit text)).DrawsOn) :
    s.Fits text := by
  intro hsame b hb
  have hreplaced : (s.dispatch (.submit text)).script =
      { s.script with present := s.present.submit text } := if_pos hsame
  rw [drawsOn_iff, hreplaced] at h
  exact ((Timeline.isChain_entries_iff _).mp h).2.1 b hb

/-! ## The law of redoing -/

/-- In any run without a reset every entry but the first comes from a submission on an earlier form
of the entry before it, and goes on with what that form had drawn. All along the run each entry goes on
with the drawings of all entries before it exactly if every submission without a new id leaves a
drawing that the entry which is redone next goes on with. -/
theorem redo_goes_on_with_what_was_drawn (actions : List Action) (h : .reset ∉ actions) :
    ((Store.after actions).script.entries.IsChain fun a b =>
        ∃ before text, Store.Submitted actions a b before text) ∧
      ((∀ k, (Store.after (actions.take k)).DrawsOn) ↔
        ∀ k text, actions[k]? = some (.submit text) → (Store.after (actions.take k)).Fits text) := by
  refine ⟨Store.isChain_submitted h, ?_⟩
  constructor
  · intro hdraws k text hk
    have hnext := hdraws (k + 1)
    rw [Store.after_take_succ hk] at hnext
    exact hnext.fits
  · intro hfits k
    induction k with
    | zero => exact List.pairwise_singleton _ _
    | succ k ih =>
      cases hk : actions[k]? with
      | none =>
        rw [List.take_add_one, hk]
        simpa using ih
      | some action =>
        rw [Store.after_take_succ hk]
        refine ih.dispatch ?_ ?_
        · rintro rfl
          exact h (List.mem_of_getElem? hk)
        · rintro text rfl
          exact hfits k text hk

/-- A turn is finished while there is nothing to redo, and two more statements are taken back and
redone. -/
def finishedInTime : List Action :=
  [.submit "rt", .submit "90\n", .submit "fd 1 bk 2\n", .undo, .redo]

theorem finished_in_time_draws_on :
    Action.reset ∉ finishedInTime ∧ ∀ k, (Store.after (finishedInTime.take k)).DrawsOn := by
  have hreset : Action.reset ∉ finishedInTime := by decide
  refine ⟨hreset, (redo_goes_on_with_what_was_drawn finishedInTime hreset).2.mpr ?_⟩
  intro k text hk hsame b hb
  match k, hk with
  | 0, hk =>
    obtain rfl := Action.submit.inj (Option.some.inj hk)
    exact absurd hsame (by decide +kernel)
  | 1, hk =>
    have hnothing : (Store.after (finishedInTime.take 1)).script.future.isEmpty = true := by
      decide +kernel
    rw [List.isEmpty_iff.mp hnothing] at hb
    cases hb
  | 2, hk =>
    obtain rfl := Action.submit.inj (Option.some.inj hk)
    exact absurd hsame (by decide +kernel)
  | 3, hk => cases Option.some.inj hk
  | 4, hk => cases Option.some.inj hk

/-- A block is left open, a line is taken back that had left it open too, and the block is closed
instead. -/
def finishedTooLate : List Action :=
  [.submit "repeat 2 [ rt 90\n", .submit "rt 45\n", .undo, .submit "]\n"]

/-- What was drawn when the block was closed is not in the entry that is redone next. -/
theorem finished_too_late_is_taken_back :
    Action.reset ∉ finishedTooLate ∧ ¬ (Store.after finishedTooLate).DrawsOn := by
  refine ⟨by decide, ?_⟩
  intro hdraws
  have hsizes : (Store.after finishedTooLate).script.entries.map (·.drawing.log.size) = [0, 2, 0] := by
    decide +kernel
  have hsorted : ((Store.after finishedTooLate).script.entries.map (·.drawing.log.size)).Pairwise
      (· ≤ ·) := List.pairwise_map.mpr (hdraws.imp fun hab => hab.size_le)
  rw [hsizes] at hsorted
  exact absurd hsorted (by decide)

end TurtleScript
