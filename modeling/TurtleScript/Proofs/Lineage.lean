-- Where the entries of a timeline come from. Every entry but the first was made
-- by an action on the entry before it. Since then both may have been revised
-- by actions that gave out no new id, each on its own; so what neighbours have
-- in common is the script that the action found, and not what it has become.
import Mathlib.Data.List.Chain
import Mathlib.Data.List.Induction
import TurtleScript.Proofs.Entries

namespace TurtleScript

/-! ## Neighbours -/

namespace Timeline

variable {σ : Type} {R : σ → σ → Prop}

/-- Neighbours are those within the past and within the future, and the present with the entry on
either side. -/
theorem isChain_entries_iff (t : Timeline σ) :
    t.entries.IsChain R ↔
      (t.past.reverse.IsChain R ∧ ∀ a ∈ t.past.head?, R a t.present) ∧
        (∀ b ∈ t.future.head?, R t.present b) ∧ t.future.IsChain R := by
  unfold entries
  rw [List.isChain_split, List.isChain_append, List.getLast?_reverse]
  simp [List.isChain_cons]

/-- Undo leads to the neighbour before the present entry. -/
theorem related_undo {t : Timeline σ} (h : t.entries.IsChain R) (hundo : t.canUndo = true) :
    R t.undo.present t.present := by
  rw [isChain_entries_iff] at h
  obtain ⟨past, present, future⟩ := t
  cases past with
  | nil => cases hundo
  | cons previous past => exact h.1.2 previous rfl

/-- Redo leads to the neighbour after the present entry. -/
theorem related_redo {t : Timeline σ} (h : t.entries.IsChain R) (hredo : t.canRedo = true) :
    R t.present t.redo.present := by
  rw [isChain_entries_iff] at h
  obtain ⟨past, present, future⟩ := t
  cases future with
  | nil => cases hredo
  | cons next future => exact h.2.1 next rfl

/-- An edit keeps the order of neighbours if the new present follows the old one, or takes its
place between its neighbours. -/
theorem isChain_entries_edit (count : σ → Nat) {t : Timeline σ} {next : σ} (h : t.entries.IsChain R)
    (hnew : count next ≠ count t.present → R t.present next)
    (hsame : count next = count t.present →
      (∀ a ∈ t.past.head?, R a next) ∧ ∀ b ∈ t.future.head?, R next b) :
    (t.edit count next).entries.IsChain R := by
  rw [isChain_entries_iff] at h
  unfold edit
  split
  · next heq =>
    obtain ⟨hpast, hfuture⟩ := hsame heq
    rw [isChain_entries_iff]
    exact ⟨⟨h.1.1, hpast⟩, hfuture, h.2.2⟩
  · next hne =>
    have hpast : (t.past.reverse ++ [t.present]).IsChain R := by
      rw [List.isChain_append, List.getLast?_reverse]
      simpa using h.1
    rw [isChain_entries_iff, List.reverse_cons]
    refine ⟨⟨hpast, ?_⟩, by simp, .nil⟩
    simpa using hnew hne

end Timeline

/-! ## Makers -/

namespace Store

theorem after_append (actions : List Action) (action : Action) :
    after (actions ++ [action]) = (after actions).dispatch action := by
  simp [after, List.foldl_append]

theorem after_take_succ {actions : List Action} {k : Nat} {action : Action}
    (h : actions[k]? = some action) :
    after (actions.take (k + 1)) = (after (actions.take k)).dispatch action := by
  rw [List.take_add_one, h]
  exact after_append ..

/-- One of the actions found this script as the present one and made a new entry of it. -/
def Made (actions : List Action) (s : Script) (action : Action) : Prop :=
  ∃ k, actions[k]? = some action ∧ (after (actions.take k)).present = s ∧
    (s.apply action).nextId ≠ s.nextId

theorem Made.nextId_ne {actions : List Action} {s : Script} {action : Action}
    (h : Made actions s action) : (s.apply action).nextId ≠ s.nextId := by
  obtain ⟨k, -, -, hne⟩ := h
  exact hne

theorem Made.append {actions : List Action} {s : Script} {action : Action}
    (h : Made actions s action) (later : Action) : Made (actions ++ [later]) s action := by
  obtain ⟨k, hk, hs, hne⟩ := h
  have hlt : k < actions.length := (List.getElem?_eq_some_iff.mp hk).1
  refine ⟨k, ?_, ?_, hne⟩
  · rw [List.getElem?_append_left hlt, hk]
  · rw [List.take_append_of_le_length (Nat.le_of_lt hlt), hs]

theorem Made.of_take {actions : List Action} {n : Nat} {s : Script} {action : Action}
    (h : Made (actions.take n) s action) : Made actions s action := by
  obtain ⟨k, hk, hs, hne⟩ := h
  rw [List.getElem?_take] at hk
  split at hk
  · next hlt =>
    refine ⟨k, hk, ?_, hne⟩
    rwa [List.take_take, Nat.min_eq_left (Nat.le_of_lt hlt)] at hs
  · cases hk

theorem made_last (actions : List Action) (action : Action)
    (h : ((after actions).present.apply action).nextId ≠ (after actions).present.nextId) :
    Made (actions ++ [action]) (after actions).present action :=
  ⟨actions.length, by simp, by simp, h⟩

/-- One of the actions made the second script out of the first, up to what became of the two since
then. -/
def Begets (Becomes : Script → Script → Prop) (actions : List Action) (a b : Script) : Prop :=
  ∃ s action, Made actions s action ∧ Becomes s a ∧ Becomes (s.apply action) b

section Lineage

variable {Becomes : Script → Script → Prop}

theorem Begets.append {actions : List Action} {a b : Script} (h : Begets Becomes actions a b)
    (later : Action) : Begets Becomes (actions ++ [later]) a b := by
  obtain ⟨s, action, hmade, ha, hb⟩ := h
  exact ⟨s, action, hmade.append later, ha, hb⟩

/-- Every entry but the first was made by an action on the entry before it. -/
theorem isChain_begets (refl : ∀ s, Becomes s s)
    (trans : ∀ r s t, Becomes r s → Becomes s t → Becomes r t) (actions : List Action)
    (revise : ∀ action ∈ actions, ∀ s : Script, (s.apply action).nextId = s.nextId →
      Becomes s (s.apply action)) :
    (after actions).script.entries.IsChain (Begets Becomes actions) := by
  induction actions using List.reverseRecOn with
  | nil => exact .singleton _
  | append_singleton actions action ih =>
    have hbefore := ih fun other hother => revise other (List.mem_append_left _ hother)
    have hkept : (after actions).script.entries.IsChain (Begets Becomes (actions ++ [action])) :=
      hbefore.imp fun _ _ hab => hab.append action
    have hedit : ((after actions).script.edit Script.nextId
        ((after actions).present.apply action)).entries.IsChain
          (Begets Becomes (actions ++ [action])) := by
      refine Timeline.isChain_entries_edit Script.nextId hkept ?_ ?_
      · intro hne
        exact ⟨_, action, made_last actions action hne, refl _, refl _⟩
      · intro heq
        have hrevised := revise action (by simp) (after actions).present heq
        obtain ⟨⟨-, hpast⟩, hfuture, -⟩ := (Timeline.isChain_entries_iff _).mp hbefore
        refine ⟨?_, ?_⟩
        · intro a ha
          obtain ⟨s, other, hmade, hsa, hsp⟩ := hpast a ha
          exact ⟨s, other, hmade.append action, hsa, trans _ _ _ hsp hrevised⟩
        · intro b hb
          obtain ⟨s, other, hmade, hsp, hsb⟩ := hfuture b hb
          exact ⟨s, other, hmade.append action, trans _ _ _ hsp hrevised, hsb⟩
    rw [after_append]
    cases action with
    | undo =>
      rw [← Timeline.entries_undo] at hkept
      exact hkept
    | redo =>
      rw [← Timeline.entries_redo] at hkept
      exact hkept
    | _ => exact hedit

end Lineage

end Store

end TurtleScript
