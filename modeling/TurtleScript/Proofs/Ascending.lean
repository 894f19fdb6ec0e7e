-- The counts of ids along a timeline. An entry goes into the past only when the
-- one that follows it has another count, and both keep their counts from then
-- on; so undo and redo always lead to another script. A submission never takes
-- an id back, so without a reset the counts rise.
import TurtleScript.Proofs.Counting
import TurtleScript.Proofs.Lineage

namespace TurtleScript

theorem Script.nextId_le_submit (s : Script) (text : String) : s.nextId ≤ (s.submit text).nextId := by
  cases hr : s.submitted? text with
  | none =>
    obtain ⟨e, he⟩ := submit_of_none hr
    rw [he]
    exact Nat.le_refl _
  | some r =>
    rw [submit_of_some hr]
    have := (counts_submitted? hr).2
    omega

/-- Without a reset a change of the count is a rise. -/
theorem Script.nextId_lt_apply {s : Script} {action : Action} (hreset : action ≠ .reset)
    (h : (s.apply action).nextId ≠ s.nextId) : s.nextId < (s.apply action).nextId := by
  cases action with
  | submit text => exact Nat.lt_of_le_of_ne (s.nextId_le_submit text) h.symm
  | reset => exact absurd rfl hreset
  | _ => exact absurd rfl h

namespace Store

/-- The second script has as many ids as the first. -/
def SameCount (s r : Script) : Prop := r.nextId = s.nextId

/-- Every entry but the first was made out of the one before it, and neither has changed its count
since. -/
theorem isChain_begets_sameCount (actions : List Action) :
    (after actions).script.entries.IsChain (Begets SameCount actions) := by
  apply isChain_begets
  · exact fun s => rfl
  · exact fun r s t hrs hst => Eq.trans hst hrs
  · exact fun action _ s h => h

theorem Begets.nextId_ne {actions : List Action} {a b : Script} (h : Begets SameCount actions a b) :
    a.nextId ≠ b.nextId := by
  obtain ⟨s, action, hmade, ha, hb⟩ := h
  rw [ha, hb]
  exact hmade.nextId_ne.symm

theorem Begets.nextId_lt {actions : List Action} {a b : Script} (h : Begets SameCount actions a b)
    (hreset : .reset ∉ actions) : a.nextId < b.nextId := by
  obtain ⟨s, action, hmade, ha, hb⟩ := h
  have haction : action ≠ .reset := by
    obtain ⟨k, hk, -⟩ := hmade
    rintro rfl
    exact hreset (List.mem_of_getElem? hk)
  rw [ha, hb]
  exact Script.nextId_lt_apply haction hmade.nextId_ne

end Store

/-! ## The law of moving -/

/-- In any run, neighbours on the timeline have different counts, so undo and redo lead to a script
with another count if they lead anywhere. In a run without a reset the counts rise all along the
timeline. -/
theorem undo_leads_to_another_script (actions : List Action) :
    let s := Store.after actions
    (s.script.entries.map Script.nextId).IsChain (· ≠ ·) ∧
      (s.script.canUndo = true → (s.dispatch .undo).present.nextId ≠ s.present.nextId) ∧
      (s.script.canRedo = true → (s.dispatch .redo).present.nextId ≠ s.present.nextId) ∧
      (.reset ∉ actions → (s.script.entries.map Script.nextId).Pairwise (· < ·)) := by
  intro s
  have hchain := Store.isChain_begets_sameCount actions
  refine ⟨?_, ?_, ?_, ?_⟩
  · rw [List.isChain_map]
    exact hchain.imp fun _ _ hab => hab.nextId_ne
  · exact fun hundo => (Timeline.related_undo hchain hundo).nextId_ne
  · exact fun hredo => (Timeline.related_redo hchain hredo).nextId_ne.symm
  · intro hreset
    rw [← List.isChain_iff_pairwise, List.isChain_map]
    exact hchain.imp fun _ _ hab => hab.nextId_lt hreset

/-- In the middle of the timeline a statement is finished, the script is named and a line is
refused. -/
def revisedInTheMiddle : List Action :=
  [.submit "fd 1\n", .submit "rt", .submit " 90 fd 2\n", .undo, .submit " 90\n", .rename "corner",
    .submit "fnord\n"]

theorem counts_rise_over_the_middle :
    let s := Store.after revisedInTheMiddle
    s.script.canUndo = true ∧ s.script.canRedo = true ∧ Action.reset ∉ revisedInTheMiddle ∧
      s.script.entries.map Script.nextId = [0, 1, 2, 3] ∧
      (s.dispatch .undo).present.nextId ≠ s.present.nextId ∧
      (s.dispatch .redo).present.nextId ≠ s.present.nextId ∧
      (s.script.entries.map Script.nextId).Pairwise (· < ·) := by
  intro s
  have hundo : s.script.canUndo = true := by decide +kernel
  have hredo : s.script.canRedo = true := by decide +kernel
  have hreset : Action.reset ∉ revisedInTheMiddle := by decide
  have hcounts : s.script.entries.map Script.nextId = [0, 1, 2, 3] := by decide +kernel
  obtain ⟨-, hback, hforth, hrise⟩ := undo_leads_to_another_script revisedInTheMiddle
  exact ⟨hundo, hredo, hreset, hcounts, hback hundo, hforth hredo, hrise hreset⟩

end TurtleScript
