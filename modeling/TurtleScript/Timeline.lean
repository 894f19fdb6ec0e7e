-- Undo and redo: the states before the present one and those after it. An
-- edit makes a new entry only if it advances a count; any other edit replaces
-- the present.
import TurtleScript.Action

namespace TurtleScript

/-- Past, present and future. The past comes newest first, and the head of the future is
redone next. -/
structure Timeline (σ : Type) where
  past : List σ
  present : σ
  future : List σ

namespace Timeline

variable {σ : Type}

/-! ## Moving -/

/-- A present without past and future. -/
def start (present : σ) : Timeline σ := ⟨[], present, []⟩

/-- The entry before the present one becomes the present, if there is one. -/
def undo (t : Timeline σ) : Timeline σ :=
  match t.past with
  | [] => t
  | previous :: past => ⟨past, previous, t.present :: t.future⟩

/-- The entry after the present one becomes the present, if there is one. -/
def redo (t : Timeline σ) : Timeline σ :=
  match t.future with
  | [] => t
  | next :: future => ⟨t.present :: t.past, next, future⟩

/-- A new present. If it has another count than the old one, the old one goes into the past
and the future is gone. -/
def edit (count : σ → Nat) (t : Timeline σ) (next : σ) : Timeline σ :=
  if count next = count t.present then { t with present := next }
  else ⟨t.present :: t.past, next, []⟩

/-- What an action does: undo and redo move, any other action edits the present. -/
def reduce (count : σ → Nat) (inner : σ → Action → σ) (t : Timeline σ) : Action → Timeline σ
  | .undo => t.undo
  | .redo => t.redo
  | action => t.edit count (inner t.present action)

def canUndo (t : Timeline σ) : Bool := !t.past.isEmpty

def canRedo (t : Timeline σ) : Bool := !t.future.isEmpty

/-- All entries, oldest first. -/
def entries (t : Timeline σ) : List σ := t.past.reverse ++ t.present :: t.future

/-! ## Laws of moving -/

theorem redo_undo {t : Timeline σ} (h : t.past ≠ []) : t.undo.redo = t := by
  obtain ⟨past, present, future⟩ := t
  cases past with
  | nil => exact absurd rfl h
  | cons => rfl

theorem undo_redo {t : Timeline σ} (h : t.future ≠ []) : t.redo.undo = t := by
  obtain ⟨past, present, future⟩ := t
  cases future with
  | nil => exact absurd rfl h
  | cons => rfl

theorem entries_undo (t : Timeline σ) : t.undo.entries = t.entries := by
  obtain ⟨past, present, future⟩ := t
  cases past <;> simp [undo, entries]

theorem entries_redo (t : Timeline σ) : t.redo.entries = t.entries := by
  obtain ⟨past, present, future⟩ := t
  cases future <;> simp [redo, entries]

end Timeline

end TurtleScript
