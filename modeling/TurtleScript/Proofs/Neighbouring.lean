-- What neighbours on a timeline have drawn. The later one goes on with the
-- drawing of the earlier one, or begins anew after a reset. A submission that
-- takes the place of the present entry keeps this as long as it draws nothing
-- that the entry which is redone next does not know of.
import TurtleScript.Proofs.Redoing

namespace TurtleScript

namespace Script

/-! ## Scripts in which no statement waits -/

/-- Where no statement waits, a token without a new id is white space. -/
theorem Stepped.eq_of_settled {s next : Script} {t : Token} {owner : Option Nat}
    (h : Stepped s t next owner) (hs : s.isIncomplete = false) (hid : next.nextId = s.nextId) :
    next = s := by
  obtain ⟨hcurrent, hopen⟩ := isIncomplete_eq_false_iff.mp hs
  cases h with
  | idle => rfl
  | started command =>
    rw [nextId_settle] at hid
    exact absurd hid (Nat.succ_ne_self _)
  | closed block blocks _ ho => simp [ho] at hopen
  | ignored i hc | bound i _ hc | opened i _ hc => simp [hc] at hcurrent

theorem drawing_takeAll?_of_settled {s r : Script} {tokens : List Token}
    (h : s.takeAll? tokens = some r) (hs : s.isIncomplete = false) (hid : r.nextId = s.nextId) :
    r.drawing = s.drawing ∧ r.isIncomplete = false := by
  induction h using takeAll?_induction with
  | nil => exact ⟨rfl, hs⟩
  | @cons s next t tokens hnext hrest ih =>
    have hfirst := (counts_take? hnext).2
    have hlater := (counts_takeAll? hrest).2
    obtain ⟨stepped, owner, hstepped, rfl⟩ := stepped_of_take? hnext
    obtain rfl := hstepped.eq_of_settled hs (by simp only at hfirst hlater; omega)
    exact ih hs hid

/-- Where no statement waits, a submission without a new id draws nothing and leaves none. -/
theorem drawing_submit_of_settled {s : Script} {text : String} (hs : s.isIncomplete = false)
    (hid : (s.submit text).nextId = s.nextId) :
    (s.submit text).drawing = s.drawing ∧ (s.submit text).isIncomplete = false := by
  cases hr : s.submitted? text with
  | none =>
    obtain ⟨e, he⟩ := submit_of_none hr
    rw [he]
    exact ⟨rfl, hs⟩
  | some r =>
    rw [submit_of_some hr] at hid ⊢
    have hsettled : (s.titled none s.name).isIncomplete = false := hs
    have htaken := drawing_takeAll?_of_settled hr hsettled
    exact htaken hid

/-! ## Neighbours -/

/-- Nothing was drawn, and no statement waits. -/
def IsFresh (s : Script) : Prop := s.drawing.log = #[] ∧ s.isIncomplete = false

/-- The second script goes on with the drawing of the first, or begins anew. -/
def Precedes (a b : Script) : Prop := a.DrawsOn b ∨ b.IsFresh

/-- One of the scripts goes on with the drawing of the other. -/
def Agrees (a b : Script) : Prop := a.DrawsOn b ∨ b.DrawsOn a

theorem isFresh_empty : empty.IsFresh := ⟨rfl, rfl⟩

theorem drawsOn_of_log_eq_nil {a : Script} (h : a.drawing.log = #[]) (b : Script) :
    a.DrawsOn b := by
  simp [DrawsOn, Drawing.Continues, h]

theorem IsFresh.submit {s : Script} (h : s.IsFresh) {text : String}
    (hid : (s.submit text).nextId = s.nextId) : (s.submit text).IsFresh := by
  obtain ⟨hdrawing, hsettled⟩ := drawing_submit_of_settled h.2 hid
  exact ⟨by rw [hdrawing, h.1], hsettled⟩

theorem agrees_refl (s : Script) : s.Agrees s := Or.inl s.drawing.continues_refl

theorem Agrees.symm {a b : Script} (h : a.Agrees b) : b.Agrees a := Or.symm h

theorem Precedes.agrees {a b : Script} (h : a.Precedes b) : a.Agrees b := by
  rcases h with h | h
  · exact Or.inl h
  · exact Or.inr (drawsOn_of_log_eq_nil h.1 a)

/-- An action adds to the drawing or clears it. -/
theorem agrees_apply (s : Script) (action : Action) : s.Agrees (s.apply action) := by
  by_cases h : action = .reset
  · subst h
    exact Or.inr (drawsOn_of_log_eq_nil rfl s)
  · exact Or.inl (continues_apply s h)

end Script

/-! ## Timelines -/

namespace Store

/-- Every entry of the timeline goes on with the drawing of the one before it, or begins anew. -/
def IsInLine (s : Store) : Prop := s.script.entries.IsChain Script.Precedes

/-- If there is something to redo, the submission of a text gives out an id or draws nothing. -/
def IsQuiet (s : Store) (text : String) : Prop :=
  s.script.future ≠ [] → (s.present.submit text).nextId = s.present.nextId →
    (s.present.submit text).drawing.log = s.present.drawing.log

theorem isInLine_withScript (script : Script) : (withScript script).IsInLine :=
  List.isChain_singleton _

theorem IsInLine.dispatch {s : Store} (h : s.IsInLine) {action : Action}
    (hquiet : ∀ text, action = .submit text → s.IsQuiet text) : (s.dispatch action).IsInLine := by
  unfold IsInLine at h ⊢
  obtain ⟨⟨-, hpast⟩, hfuture, -⟩ := (Timeline.isChain_entries_iff _).mp h
  have hedit : ∀ next : Script, s.present.Precedes next →
      (next.nextId = s.present.nextId → (∀ a ∈ s.script.past.head?, a.Precedes next) ∧
        ∀ b ∈ s.script.future.head?, next.Precedes b) →
      (s.script.edit Script.nextId next).entries.IsChain Script.Precedes :=
    fun next hnew hsame => Timeline.isChain_entries_edit Script.nextId h (fun _ => hnew) hsame
  cases action with
  | undo =>
    rw [← Timeline.entries_undo] at h
    exact h
  | redo =>
    rw [← Timeline.entries_redo] at h
    exact h
  | reset =>
    have hfresh : ∀ a : Script, a.Precedes .empty := fun _ => Or.inr Script.isFresh_empty
    refine hedit .empty (hfresh _) fun _ => ⟨fun a _ => hfresh a, fun b _ => ?_⟩
    exact Or.inl (Script.drawsOn_of_log_eq_nil rfl b)
  | submit text =>
    have hgrows : s.present.DrawsOn (s.present.submit text) := Script.continues_submit _ _
    refine hedit (s.present.submit text) (Or.inl hgrows) fun hid => ⟨?_, ?_⟩
    · intro a ha
      rcases hpast a ha with hon | hfresh
      · exact Or.inl (hon.trans hgrows)
      · exact Or.inr (hfresh.submit hid)
    -- The entry that is redone next knows of nothing that was drawn since it was made.
    · intro b hb
      have hsome : s.script.future ≠ [] := by
        intro hnone
        simp [hnone] at hb
      rcases hfuture b hb with hon | hfresh
      · have hsame := hquiet text rfl hsome hid
        refine Or.inl ?_
        unfold Script.DrawsOn Drawing.Continues
        rw [hsame]
        exact hon
      · exact Or.inr hfresh
  | rename name =>
    have hgrows : s.present.DrawsOn { s.present with name } := s.present.drawing.continues_refl
    exact hedit { s.present with name } (Or.inl hgrows) fun _ => ⟨hpast, hfuture⟩
  | _ => exact hedit s.present (Or.inl s.present.drawing.continues_refl) fun _ => ⟨hpast, hfuture⟩

/-- An action that does not move along the timeline adds to the drawing or clears it. -/
theorem agrees_dispatch (s : Store) {action : Action} (hundo : action ≠ .undo)
    (hredo : action ≠ .redo) : s.present.Agrees (s.dispatch action).present := by
  rw [present_dispatch s hundo hredo]
  exact Script.agrees_apply _ action

/-- In a timeline that is in line, every action adds to the drawing, or takes from its end. -/
theorem IsInLine.agrees {s : Store} (h : s.IsInLine) (action : Action) :
    s.present.Agrees (s.dispatch action).present := by
  obtain ⟨⟨-, hpast⟩, hfuture, -⟩ := (Timeline.isChain_entries_iff _).mp h
  obtain ⟨⟨past, present, future⟩, environment⟩ := s
  cases action with
  | undo =>
    cases past with
    | nil => exact Script.agrees_refl _
    | cons a past => exact (hpast a rfl).agrees.symm
  | redo =>
    cases future with
    | nil => exact Script.agrees_refl _
    | cons b future => exact (hfuture b rfl).agrees
  | _ => exact agrees_dispatch _ (by simp) (by simp)

/-! ## Rebuilding a script -/

/-- No submission can draw without giving out an id while there is something to redo. -/
def IsSettled (s : Store) : Prop := s.script.future = [] ∨ s.present.isIncomplete = false

theorem IsSettled.isQuiet {s : Store} (h : s.IsSettled) (text : String) : s.IsQuiet text := by
  intro hsome hid
  rcases h with hnone | hsettled
  · exact absurd hnone hsome
  · rw [(Script.drawing_submit_of_settled hsettled hid).1]

theorem isSettled_dispatch_reset (s : Store) : (s.dispatch .reset).IsSettled := by
  right
  rw [present_dispatch s (by simp) (by simp)]
  rfl

theorem IsSettled.dispatch_submit {s : Store} (h : s.IsSettled) (text : String) :
    (s.dispatch (.submit text)).IsSettled := by
  have hedit : (s.dispatch (.submit text)).script =
      s.script.edit Script.nextId (s.present.submit text) := rfl
  unfold IsSettled Store.present
  rw [hedit]
  unfold Timeline.edit
  split
  · next hid =>
    rcases h with hnone | hsettled
    · exact Or.inl hnone
    · exact Or.inr (Script.drawing_submit_of_settled hsettled hid).2
  · exact Or.inl rfl

end Store

end TurtleScript
