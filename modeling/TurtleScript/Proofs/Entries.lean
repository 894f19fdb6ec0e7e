-- The states of a script that a store can hold. Undo and redo only move among
-- them and every other action makes at most one, out of the present one. So
-- what holds of the empty script and is kept by every action on a script holds
-- of all entries of every timeline.
import TurtleScript.Store

namespace TurtleScript

def Store.after (actions : List Action) : Store := actions.foldl Store.dispatch .empty

/-! ## One action -/

section Timeline

variable {σ : Type} {P : σ → Prop}

theorem Timeline.forall_entries_edit (count : σ → Nat) {t : Timeline σ} {next : σ}
    (h : ∀ s ∈ t.entries, P s) (hnext : P next) : ∀ s ∈ (t.edit count next).entries, P s := by
  obtain ⟨past, present, future⟩ := t
  simp only [entries, List.mem_append, List.mem_reverse, List.mem_cons] at h ⊢
  intro s hs
  unfold edit at hs
  split at hs
  · rcases hs with hs | rfl | hs
    · exact h s (Or.inl hs)
    · exact hnext
    · exact h s (Or.inr (Or.inr hs))
  · simp only [List.mem_cons, List.not_mem_nil, or_false] at hs
    rcases hs with (rfl | hs) | rfl
    · exact h s (Or.inr (Or.inl rfl))
    · exact h s (Or.inl hs)
    · exact hnext

theorem Timeline.forall_entries_reduce (count : σ → Nat) {inner : σ → Action → σ}
    (step : ∀ s action, P s → P (inner s action)) {t : Timeline σ} (h : ∀ s ∈ t.entries, P s)
    (action : Action) : ∀ s ∈ (t.reduce count inner action).entries, P s := by
  have hpresent : P t.present := h t.present (by simp [entries])
  cases action with
  | undo => exact fun s hs => h s (entries_undo t ▸ hs)
  | redo => exact fun s hs => h s (entries_redo t ▸ hs)
  | _ => exact forall_entries_edit count h (step _ _ hpresent)

end Timeline

/-! ## All actions -/

/-- What holds at the beginning and is kept by every action holds of every entry. -/
theorem Store.forall_entries_after {P : Script → Prop} (start : P .empty)
    (step : ∀ s action, P s → P (s.apply action)) (actions : List Action) :
    ∀ s ∈ (after actions).script.entries, P s := by
  have run : ∀ (actions : List Action) (store : Store), (∀ s ∈ store.script.entries, P s) →
      ∀ s ∈ (actions.foldl dispatch store).script.entries, P s := by
    intro actions
    induction actions with
    | nil => exact fun store h => h
    | cons action actions ih =>
      exact fun store h => ih _ (Timeline.forall_entries_reduce _ step h action)
  refine run actions .empty ?_
  intro s hs
  have : s = .empty := by simpa [empty, withScript, Timeline.start, Timeline.entries] using hs
  exact this ▸ start

/-! ## The present entry -/

theorem Store.present_mem_entries (s : Store) : s.present ∈ s.script.entries := by
  simp [present, Timeline.entries]

/-- An action that does not move along the timeline acts on the present script. -/
theorem Store.present_dispatch (s : Store) {action : Action} (hundo : action ≠ .undo)
    (hredo : action ≠ .redo) : (s.dispatch action).present = s.present.apply action := by
  have hreduce : (s.dispatch action).script =
      s.script.edit Script.nextId (s.present.apply action) := by
    cases action with
    | undo => exact absurd rfl hundo
    | redo => exact absurd rfl hredo
    | _ => rfl
  unfold present
  rw [hreduce]
  unfold Timeline.edit
  split <;> rfl

end TurtleScript
