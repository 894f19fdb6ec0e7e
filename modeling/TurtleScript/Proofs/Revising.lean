-- What an action without a new id can make of a script. It may finish a
-- statement, name the script or leave an error; but the number of statements
-- stays, and what was drawn is only added to.
import TurtleScript.Proofs.Counting
import TurtleScript.Proofs.Lineage
import TurtleScript.Proofs.Tracing

namespace TurtleScript

/-- The second script is a later form of the first: it has no further statement, and its drawing
goes on where the first one's ends. -/
structure Script.Revises (s r : Script) : Prop where
  nextId : r.nextId = s.nextId
  statementCount : r.statementCount = s.statementCount
  drawing : s.drawing.Continues r.drawing

namespace Script

theorem revises_refl (s : Script) : s.Revises s := ⟨rfl, rfl, s.drawing.continues_refl⟩

theorem Revises.trans {r s t : Script} (hrs : r.Revises s) (hst : s.Revises t) : r.Revises t where
  nextId := hst.nextId.trans hrs.nextId
  statementCount := hst.statementCount.trans hrs.statementCount
  drawing := hrs.drawing.trans hst.drawing

/-- Except for the reset, no action takes anything back. -/
theorem continues_apply (s : Script) {action : Action} (h : action ≠ .reset) :
    s.drawing.Continues (s.apply action).drawing := by
  cases action with
  | submit text => exact continues_submit s text
  | reset => exact absurd rfl h
  | _ => exact s.drawing.continues_refl

/-- An action that gives out no id revises the script. -/
theorem revises_apply {s : Script} {action : Action} (h : action ≠ .reset)
    (hid : (s.apply action).nextId = s.nextId) : s.Revises (s.apply action) := by
  refine ⟨hid, ?_, continues_apply s h⟩
  cases action with
  | submit text => exact statementCount_submit_of_eq hid
  | reset => exact absurd rfl h
  | _ => rfl

end Script

namespace Store

/-- Without a reset new entries come from submissions only. -/
theorem Made.exists_submit {actions : List Action} {s : Script} {action : Action}
    (h : Made actions s action) (hreset : .reset ∉ actions) : ∃ text, action = .submit text := by
  obtain ⟨k, hk, -, hne⟩ := h
  cases action with
  | submit text => exact ⟨text, rfl⟩
  | reset => exact absurd (List.mem_of_getElem? hk) hreset
  | _ => exact absurd rfl hne

/-- In a run without a reset every entry but the first goes back to a submission on an earlier form
of the entry before it. -/
theorem isChain_begets_revises {actions : List Action} (h : .reset ∉ actions) :
    (after actions).script.entries.IsChain (Begets Script.Revises actions) :=
  isChain_begets Script.revises_refl (fun _ _ _ => Script.Revises.trans) actions
    fun _ ha _ => Script.revises_apply fun heq => h (heq ▸ ha)

/-- One of the actions submitted a text. The first script is a later form of what it found and the
second one a later form of what it made. This has more statements by those that the text began, and
goes on with the drawing of what was found. -/
structure Submitted (actions : List Action) (a b before : Script) (text : String) : Prop where
  made : Made actions before (.submit text)
  found : before.Revises a
  left : (before.submit text).Revises b
  statementCount : b.statementCount = a.statementCount + before.begun text
  drawing : before.drawing.Continues b.drawing

/-- In a run without a reset every entry but the first was submitted on the entry before it. -/
theorem isChain_submitted {actions : List Action} (h : .reset ∉ actions) :
    (after actions).script.entries.IsChain fun a b =>
      ∃ before text, Submitted actions a b before text := by
  refine (isChain_begets_revises h).imp ?_
  rintro a b ⟨before, action, hmade, ha, hb⟩
  obtain ⟨text, rfl⟩ := hmade.exists_submit h
  have hne : (before.submit text).nextId ≠ before.nextId := hmade.nextId_ne
  refine ⟨before, text, hmade, ha, hb, ?_, (Script.continues_submit before text).trans hb.drawing⟩
  rw [hb.statementCount, ha.statementCount]
  exact Script.statementCount_submit_of_ne hne

end Store

end TurtleScript
