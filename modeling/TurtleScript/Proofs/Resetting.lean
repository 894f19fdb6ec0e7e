-- What undo makes of a reset. A reset is kept in the timeline only where it
-- changes the number of ids given out, and this is so where the script has a
-- statement. A script that has but a name, white space or an error is replaced
-- by the empty one, and nothing brings it back.
import TurtleScript.Proofs.Lineage
import TurtleScript.Proofs.Listing
import TurtleScript.Proofs.Counting

namespace TurtleScript

/-! ## Scripts without statements -/

theorem Script.statementCount_eq_zero_iff {s : Script} :
    s.statementCount = 0 ↔ s.instructions = #[] ∧ s.isIncomplete = false := by
  unfold statementCount
  cases s.isIncomplete <;> simp

/-- A script without statements has no ids. -/
theorem Script.ids_of_statementCount {s : Script} (h : s.statementCount = 0) : s.ids = [] := by
  obtain ⟨hinstructions, hsettled⟩ := statementCount_eq_zero_iff.mp h
  obtain ⟨hcurrent, hopen⟩ := isIncomplete_eq_false_iff.mp hsettled
  simp [ids, idsOf, bodyCalls, hinstructions, hcurrent, hopen]

/-- Ids are given out exactly where a statement is begun. -/
theorem Script.Faithful.nextId_eq_zero_iff {s : Script} (h : s.Faithful) :
    s.nextId = 0 ↔ s.statementCount = 0 := by
  constructor
  · intro hid
    have hbare : s.bare.statementCount = 0 + empty.beginsAll s.plainTokens ∧
        0 + empty.beginsAll s.plainTokens ≤ s.bare.nextId := counts_takeAll? h.rebuilt
    have hsame : s.bare.statementCount = s.statementCount ∧ s.bare.nextId = s.nextId := ⟨rfl, rfl⟩
    omega
  · intro hcount
    have hrange := h.counted.ids
    rw [ids_of_statementCount hcount] at hrange
    exact List.range_eq_nil.mp hrange.symm

/-! ## Resets -/

section Replacing

variable {σ : Type} {t : Timeline σ} {next : σ}

/-- A new entry is taken back by undo and can be redone. -/
theorem Timeline.undo_edit_of_ne {count : σ → Nat} (h : count next ≠ count t.present) :
    (t.edit count next).undo = ⟨t.past, t.present, [next]⟩ := by
  unfold edit
  rw [if_neg h]
  rfl

/-- What was replaced is not brought back by undo, which leads on to the entry before it. -/
theorem Timeline.undo_replaced_ne (h : t.present ≠ next) :
    ¬ ({ t with present := next }.undo.past = t.past ∧
      { t with present := next }.undo.present = t.present) := by
  obtain ⟨past, present, future⟩ := t
  rintro ⟨hpast, hpresent⟩
  cases past with
  | nil => exact h hpresent.symm
  | cons previous past => exact List.cons_ne_self _ _ hpast.symm

end Replacing

namespace Store

/-- Once there is nothing left, a further reset changes nothing. -/
theorem dispatch_reset_reset (s : Store) : (s.dispatch .reset).dispatch .reset = s.dispatch .reset := by
  have hempty : (s.dispatch .reset).script.present = .empty := s.present_dispatch (by simp) (by simp)
  have hscript : (s.dispatch .reset).script.edit Script.nextId .empty = (s.dispatch .reset).script := by
    rw [← hempty]
    exact if_pos rfl
  exact congrArg (fun script => (⟨script, s.environment⟩ : Store)) hscript

/-- The store after some resets and one undo. -/
def resetAndBack (s : Store) (resets : Nat) : Store :=
  ((List.replicate resets Action.reset).foldl dispatch s).dispatch .undo

theorem foldl_resets (s : Store) (n : Nat) :
    (List.replicate (n + 1) Action.reset).foldl dispatch s = s.dispatch .reset := by
  induction n with
  | zero => rfl
  | succ n ih =>
    rw [List.replicate_succ', List.foldl_append, ih]
    exact s.dispatch_reset_reset

theorem script_resetAndBack (s : Store) (n : Nat) :
    (s.resetAndBack (n + 1)).script = (s.script.edit Script.nextId .empty).undo := by
  unfold resetAndBack
  rw [foldl_resets]
  rfl

section Faithful

variable {s : Store} (h : s.present.Faithful) (n : Nat)

include h

/-- A script with a statement is kept by the reset and comes back. -/
theorem script_resetAndBack_of_statement (hcount : s.present.statementCount ≠ 0) :
    (s.resetAndBack (n + 1)).script = ⟨s.script.past, s.present, [.empty]⟩ := by
  have hid : Script.empty.nextId ≠ s.script.present.nextId :=
    fun heq => hcount (h.nextId_eq_zero_iff.mp heq.symm)
  rw [script_resetAndBack]
  exact Timeline.undo_edit_of_ne hid

/-- A script without a statement is replaced. -/
theorem script_resetAndBack_of_none (hcount : s.present.statementCount = 0) :
    (s.resetAndBack (n + 1)).script = { s.script with present := .empty }.undo := by
  have hid : Script.empty.nextId = s.script.present.nextId := (h.nextId_eq_zero_iff.mpr hcount).symm
  rw [script_resetAndBack, Timeline.edit, if_pos hid]

end Faithful

end Store

/-! ## The law of resetting -/

/-- In any run, some resets and one undo restore the past and the present if the present script has
a statement, finished or not, and the reset can be redone. Otherwise the empty script takes the place
of the present one, and undo leads on to the entry before it. So a script other than the empty one
comes back exactly if it has a statement. -/
theorem reset_is_undone_where_there_is_a_statement (actions : List Action) (n : Nat) :
    let s := Store.after actions
    let r := s.resetAndBack (n + 1)
    (s.present.statementCount ≠ 0 → r.script = ⟨s.script.past, s.present, [.empty]⟩) ∧
    (s.present.statementCount = 0 → r.script = { s.script with present := .empty }.undo) ∧
    (s.present ≠ .empty → ((r.script.past = s.script.past ∧ r.present = s.present) ↔
      s.present.statementCount ≠ 0)) := by
  intro s r
  have hfaithful : s.present.Faithful := Store.faithful_of_mem_entries s.present_mem_entries
  have hback : s.present.statementCount ≠ 0 → r.script = ⟨s.script.past, s.present, [.empty]⟩ :=
    Store.script_resetAndBack_of_statement hfaithful n
  have hlost : s.present.statementCount = 0 → r.script = { s.script with present := .empty }.undo :=
    Store.script_resetAndBack_of_none hfaithful n
  refine ⟨hback, hlost, ?_⟩
  intro hpresent
  constructor
  · intro hrestored hcount
    unfold Store.present at hrestored
    rw [hlost hcount] at hrestored
    exact Timeline.undo_replaced_ne hpresent hrestored
  · intro hcount
    unfold Store.present
    rw [hback hcount]
    exact ⟨rfl, rfl⟩

/-- After a reset the script is named, a block is opened, and a line is refused. -/
def openedAfterReset : List Action :=
  [.submit "fd 1\n", .reset, .rename "spiral", .submit "rp 2 [ \n", .submit "fnord\n"]

/-- After a reset the script is named, and that is all. -/
def namedAfterReset : List Action := [.submit "fd 1\n", .reset, .rename "spiral"]

theorem opened_block_is_restored :
    let s := Store.after openedAfterReset
    let t := Store.after namedAfterReset
    s.present.isIncomplete = true ∧ s.present.statementCount ≠ 0 ∧
      (s.resetAndBack 2).script = ⟨s.script.past, s.present, [.empty]⟩ ∧
    t.present.statementCount = 0 ∧ t.present ≠ .empty ∧
      (t.resetAndBack 1).script = { t.script with present := .empty }.undo ∧
      ¬ ((t.resetAndBack 1).script.past = t.script.past ∧ (t.resetAndBack 1).present = t.present) := by
  intro s t
  have hopen : s.present.isIncomplete = true ∧ s.present.statementCount ≠ 0 := by decide +kernel
  have hnone : t.present.statementCount = 0 := by decide +kernel
  have hname : t.present ≠ .empty := by
    intro heq
    have hsame := congrArg Script.name heq
    exact absurd hsame (by decide +kernel)
  obtain ⟨hback, -⟩ := reset_is_undone_where_there_is_a_statement openedAfterReset 1
  obtain ⟨-, hlost, hexactly⟩ := reset_is_undone_where_there_is_a_statement namedAfterReset 0
  exact ⟨hopen.1, hopen.2, hback hopen.2, hnone, hname, hlost hnone,
    fun hboth => (hexactly hname).mp hboth hnone⟩

/-- A script that has only a name differs from the empty one, and a reset and an undo do not bring
it back. -/
theorem lone_name_is_not_brought_back :
    let s := Store.after [.rename "spiral"]
    let r := (s.dispatch .reset).dispatch .undo
    s.present ≠ .empty ∧ ¬ (r.script.past = s.script.past ∧ r.present = s.present) := by
  intro s r
  have hnames : s.present.name = "spiral" ∧ r.present.name = Script.defaultName ∧
      Script.empty.name = Script.defaultName := by decide +kernel
  have hother : "spiral" ≠ Script.defaultName := by decide
  refine ⟨?_, ?_⟩
  · intro heq
    rw [heq, hnames.2.2] at hnames
    exact hother hnames.1.symm
  · rintro ⟨-, heq⟩
    rw [heq, hnames.1] at hnames
    exact hother hnames.2.1

end TurtleScript
