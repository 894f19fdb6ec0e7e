-- The log of a drawing only grows. What an instruction, a token or a whole
-- submission draws comes behind all that was drawn before.
import TurtleScript.Proofs.Motion
import TurtleScript.Proofs.Stepping

namespace TurtleScript

/-! ## Drawings that go on -/

/-- The second drawing goes on where the first one ends: the log of the first is the beginning of
the other log. -/
def Drawing.Continues (d e : Drawing) : Prop := d.log.toList <+: e.log.toList

namespace Drawing

theorem continues_refl (d : Drawing) : d.Continues d := List.prefix_rfl

theorem Continues.trans {d e f : Drawing} (hde : d.Continues e) (hef : e.Continues f) :
    d.Continues f := List.IsPrefix.trans hde hef

theorem Continues.size_le {d e : Drawing} (h : d.Continues e) : d.log.size ≤ e.log.size := by
  simpa using h.length_le

/-- A new entry at the end of the log continues a drawing. -/
theorem continues_push (d : Drawing) (t : Turtle) (c : DrawCommand) :
    d.Continues ⟨t, d.log.push c⟩ := by
  unfold Continues
  rw [Array.toList_push]
  exact List.prefix_append ..

theorem continues_follow (d : Drawing) (m : Motion) : d.Continues (d.follow m) := by
  generalize hstep : d.follow m = e
  cases hstep ▸ d.follows m with
  | drew | turned => exact d.continues_push _ _
  | moved | set => exact d.continues_refl

theorem continues_followAll (d : Drawing) (motions : List Motion) : d.Continues (d.followAll motions) :=
  followAll_keeps (fun m _ e he => he.trans (e.continues_follow m)) d.continues_refl

end Drawing

/-- Performing an instruction continues the drawing. -/
theorem Instruction.continues_perform (i : Instruction) (d : Drawing) : d.Continues (i.perform d) := by
  rw [i.perform_eq]
  exact d.continues_followAll i.motions

/-! ## Scripts -/

namespace Script

theorem continues_settle (s : Script) (i : Instruction) :
    s.drawing.Continues (s.settle i).drawing := by
  unfold settle
  split
  · exact s.drawing.continues_refl
  · split
    · exact s.drawing.continues_refl
    · exact i.continues_perform s.drawing

theorem Stepped.continues {s next : Script} {t : Token} {owner : Option Nat}
    (h : Stepped s t next owner) : s.drawing.Continues next.drawing := by
  cases h with
  | idle | opened => exact s.drawing.continues_refl
  | started command => exact continues_settle { s with nextId := s.nextId + 1 } _
  | closed block blocks => exact continues_settle { s with openBlocks := blocks } _
  | ignored i | bound i j => exact continues_settle s.unwaited _

theorem continues_take? {s r : Script} {t : Token} (h : s.take? t = some r) :
    s.drawing.Continues r.drawing := by
  obtain ⟨next, owner, hstepped, rfl⟩ := stepped_of_take? h
  exact hstepped.continues

theorem continues_takeAll? {s r : Script} {tokens : List Token} (h : s.takeAll? tokens = some r) :
    s.drawing.Continues r.drawing := by
  induction h using takeAll?_induction with
  | nil => exact r.drawing.continues_refl
  | cons hnext _ ih => exact (continues_take? hnext).trans ih

/-- A submission only adds to the drawing. -/
theorem continues_submit (s : Script) (text : String) :
    s.drawing.Continues (s.submit text).drawing := by
  cases h : s.submitted? text with
  | none =>
    obtain ⟨e, he⟩ := submit_of_none h
    rw [he]
    exact s.drawing.continues_refl
  | some r =>
    rw [submit_of_some h]
    have htaken : (s.titled none s.name).drawing.Continues r.drawing := continues_takeAll? h
    exact htaken

end Script

end TurtleScript
