-- A timeline is a list with a cursor. Undo and redo move the cursor, and an
-- edit writes at the cursor: over the present entry if the count stays, and
-- otherwise behind it, where it cuts off the rest of the list. The two stacks
-- of a timeline hold the list on either side, one of them in reverse.
import TurtleScript.Store

namespace TurtleScript

/-! ## Lists with a cursor -/

/-- A list and the place of one of its items. -/
structure Cursor (σ : Type) where
  items : List σ
  index : Nat
  inRange : index < items.length

namespace Cursor

variable {σ : Type}

@[ext] theorem ext {c d : Cursor σ} (hitems : c.items = d.items) (hindex : c.index = d.index) :
    c = d := by
  obtain ⟨items, index, _⟩ := c
  obtain ⟨items', index', _⟩ := d
  simp only at hitems hindex
  subst hitems hindex
  rfl

def start (item : σ) : Cursor σ := ⟨[item], 0, Nat.zero_lt_one⟩

def present (c : Cursor σ) : σ := c.items.get ⟨c.index, c.inRange⟩

/-- The cursor moves one place to the front and stays at the first item. -/
def back (c : Cursor σ) : Cursor σ :=
  ⟨c.items, c.index - 1, Nat.lt_of_le_of_lt (Nat.sub_le ..) c.inRange⟩

/-- The cursor moves one place to the end and stays at the last item. -/
def forth (c : Cursor σ) : Cursor σ :=
  if h : c.index + 1 < c.items.length then ⟨c.items, c.index + 1, h⟩ else c

/-- Another item at the cursor. -/
def replace (c : Cursor σ) (item : σ) : Cursor σ :=
  ⟨c.items.set c.index item, c.index, by simpa using c.inRange⟩

/-- A new item after the cursor, which moves there. All that came after the cursor is gone. -/
def extend (c : Cursor σ) (item : σ) : Cursor σ :=
  ⟨c.items.take (c.index + 1) ++ [item], c.index + 1, by
    have := c.inRange
    simp only [List.length_append, List.length_take, List.length_singleton]
    omega⟩

/-- An item with the count of the present one replaces it, and any other one comes after it. -/
def edit (count : σ → Nat) (c : Cursor σ) (next : σ) : Cursor σ :=
  if count next = count c.present then c.replace next else c.extend next

/-- What an action does: undo and redo move the cursor, any other action edits. -/
def reduce (count : σ → Nat) (inner : σ → Action → σ) (c : Cursor σ) : Action → Cursor σ
  | .undo => c.back
  | .redo => c.forth
  | action => c.edit count (inner c.present action)

end Cursor

/-! ## The cursor of a timeline -/

namespace Timeline

variable {σ : Type}

/-- All entries, with the cursor at the present one. -/
def cursor (t : Timeline σ) : Cursor σ :=
  ⟨t.entries, t.past.length, by simp [entries]⟩

@[simp] theorem present_cursor (t : Timeline σ) : t.cursor.present = t.present := by
  simp [Cursor.present, cursor, entries]

theorem cursor_undo (t : Timeline σ) : t.undo.cursor = t.cursor.back := by
  obtain ⟨past, present, future⟩ := t
  refine Cursor.ext (entries_undo _) ?_
  cases past <;> simp [cursor, undo, Cursor.back]

theorem cursor_redo (t : Timeline σ) : t.redo.cursor = t.cursor.forth := by
  obtain ⟨past, present, future⟩ := t
  cases future with
  | nil =>
    have hlast : ¬ past.length + 1 < (entries ⟨past, present, []⟩).length := by simp [entries]
    refine Eq.trans ?_ (dif_neg hlast).symm
    rfl
  | cons next future =>
    have hmore : past.length + 1 < (entries ⟨past, present, next :: future⟩).length := by
      simp [entries]
    refine Eq.trans ?_ (dif_pos hmore).symm
    exact Cursor.ext (entries_redo ⟨past, present, next :: future⟩) rfl

theorem cursor_edit (count : σ → Nat) (t : Timeline σ) (next : σ) :
    (t.edit count next).cursor = t.cursor.edit count next := by
  unfold edit Cursor.edit
  rw [present_cursor]
  split
  · refine Cursor.ext ?_ rfl
    simp [cursor, entries, Cursor.replace]
  · refine Cursor.ext ?_ ?_
    · simp [cursor, entries, Cursor.extend, List.take_append, List.take_of_length_le]
    · simp [cursor, Cursor.extend]

/-- Every action does to a timeline what it does to the list and its cursor. -/
theorem cursor_reduce (count : σ → Nat) (inner : σ → Action → σ) (t : Timeline σ)
    (action : Action) :
    (t.reduce count inner action).cursor = t.cursor.reduce count inner action := by
  cases action with
  | undo => exact cursor_undo t
  | redo => exact cursor_redo t
  | _ => exact (cursor_edit count t _).trans (by rw [← present_cursor t]; rfl)

theorem cursor_foldl_reduce (count : σ → Nat) (inner : σ → Action → σ) (actions : List Action)
    (t : Timeline σ) :
    (actions.foldl (reduce count inner) t).cursor =
      actions.foldl (Cursor.reduce count inner) t.cursor := by
  induction actions generalizing t with
  | nil => rfl
  | cons action actions ih => rw [List.foldl_cons, List.foldl_cons, ih, cursor_reduce]

/-- The two stacks of a timeline are the parts of the list on either side of the cursor. -/
theorem eq_of_cursor (t : Timeline σ) :
    t = ⟨(t.cursor.items.take t.cursor.index).reverse, t.cursor.present,
      t.cursor.items.drop (t.cursor.index + 1)⟩ := by
  obtain ⟨past, present, future⟩ := t
  simp [cursor, entries, Cursor.present, List.drop_append, List.drop_of_length_le]

/-! ## There and back -/

section ThereAndBack

variable (count : σ → Nat) (inner : σ → Action → σ)

/-- As many steps forth as there were steps back restore everything. -/
theorem foldl_undo_redo (k : Nat) (t : Timeline σ) (h : k ≤ t.past.length) :
    (List.replicate k Action.undo ++ List.replicate k Action.redo).foldl (reduce count inner) t = t := by
  induction k generalizing t with
  | zero => rfl
  | succ k ih =>
    obtain ⟨previous, past, hpast⟩ := List.exists_cons_of_length_pos (Nat.lt_of_lt_of_le k.succ_pos h)
    have hundo : k ≤ t.undo.past.length := by
      simp only [undo, hpast, List.length_cons] at h ⊢
      omega
    rw [List.replicate_succ, List.replicate_succ', List.cons_append, ← List.append_assoc,
      List.foldl_cons, List.foldl_append]
    show reduce count inner ((List.replicate k Action.undo ++ List.replicate k Action.redo).foldl
      (reduce count inner) t.undo) .redo = t
    rw [ih t.undo hundo]
    exact redo_undo (by simp [hpast])

/-- As many steps back as there were steps forth restore everything. -/
theorem foldl_redo_undo (k : Nat) (t : Timeline σ) (h : k ≤ t.future.length) :
    (List.replicate k Action.redo ++ List.replicate k Action.undo).foldl (reduce count inner) t = t := by
  induction k generalizing t with
  | zero => rfl
  | succ k ih =>
    obtain ⟨next, future, hfuture⟩ :=
      List.exists_cons_of_length_pos (Nat.lt_of_lt_of_le k.succ_pos h)
    have hredo : k ≤ t.redo.future.length := by
      simp only [redo, hfuture, List.length_cons] at h ⊢
      omega
    rw [List.replicate_succ, List.replicate_succ', List.cons_append, ← List.append_assoc,
      List.foldl_cons, List.foldl_append]
    show reduce count inner ((List.replicate k Action.redo ++ List.replicate k Action.undo).foldl
      (reduce count inner) t.redo) .undo = t
    rw [ih t.redo hredo]
    exact undo_redo (by simp [hfuture])

end ThereAndBack

end Timeline

/-! ## The law of the cursor -/

/-- Whatever an inner reducer makes at the beginning and of every action, and however it counts:
after any actions the timeline is the list and the cursor that the same actions make. Its past is
the list before the cursor, newest first, and its future the list after the cursor. Steps back and
as many steps forth restore all of it, and so do steps forth and as many steps back, as long as
there are entries to step to. -/
theorem timeline_is_a_list_with_a_cursor {σ : Type} (count : σ → Nat)
    (inner : Option σ → Action → σ) (first : Action) (actions : List Action) :
    let reduce := Timeline.reduce count fun s => inner (some s)
    let t := actions.foldl reduce (.start (inner none first))
    let c := actions.foldl (Cursor.reduce count fun s => inner (some s)) (.start (inner none first))
    t.entries = c.items ∧ t.past.length = c.index ∧
      t = ⟨(c.items.take c.index).reverse, c.present, c.items.drop (c.index + 1)⟩ ∧
      (∀ k, k ≤ t.past.length →
        (List.replicate k Action.undo ++ List.replicate k Action.redo).foldl reduce t = t) ∧
      ∀ k, k ≤ t.future.length →
        (List.replicate k Action.redo ++ List.replicate k Action.undo).foldl reduce t = t := by
  intro reduce t c
  have hcursor : t.cursor = c := Timeline.cursor_foldl_reduce count _ actions _
  refine ⟨congrArg Cursor.items hcursor, congrArg Cursor.index hcursor, ?_, ?_, ?_⟩
  · rw [← hcursor]
    exact t.eq_of_cursor
  · exact fun k hk => Timeline.foldl_undo_redo count _ k t hk
  · exact fun k hk => Timeline.foldl_redo_undo count _ k t hk

/-- Scripts as an inner reducer has them: the first action makes the empty one. -/
def scriptReducer (s : Option Script) (action : Action) : Script :=
  match s with
  | none => .empty
  | some s => s.apply action

theorem three_lines_are_restored :
    let reduce := Timeline.reduce Script.nextId fun s => scriptReducer (some s)
    let t := [Action.submit "fd 1\n", .submit "fd 2\n", .submit "fd 3\n", .undo].foldl reduce
      (.start (scriptReducer none .undo))
    2 ≤ t.past.length ∧ 1 ≤ t.future.length ∧
      (List.replicate 2 Action.undo ++ List.replicate 2 Action.redo).foldl reduce t = t ∧
      (List.replicate 1 Action.redo ++ List.replicate 1 Action.undo).foldl reduce t = t := by
  intro reduce t
  have hpast : 2 ≤ t.past.length := by decide +kernel
  have hfuture : 1 ≤ t.future.length := by decide +kernel
  obtain ⟨-, -, -, hback, hforth⟩ := timeline_is_a_list_with_a_cursor Script.nextId scriptReducer
    .undo [.submit "fd 1\n", .submit "fd 2\n", .submit "fd 3\n", .undo]
  exact ⟨hpast, hfuture, hback 2 hpast, hforth 1 hfuture⟩

end TurtleScript
