-- The statements of a script, the one that is still unfinished among them. A
-- token begins a statement exactly if no statement waits for it, and what
-- begins a statement is given a new id; so without a new id the number of
-- statements stays.
import TurtleScript.Proofs.Stepping

namespace TurtleScript.Script

/-! ## The number of statements -/

/-- How many statements there are outside all blocks, with the unfinished one. -/
def statementCount (s : Script) : Nat := s.instructions.size + if s.isIncomplete then 1 else 0

/-- How many statements a token begins: one if no statement is waiting and it is no white
space. -/
def begins (s : Script) (t : Token) : Nat := if s.isIncomplete || t.isBlank then 0 else 1

def beginsAll (s : Script) : List Token → Nat
  | [] => 0
  | t :: tokens => s.begins t + ((s.take? t).map fun next => next.beginsAll tokens).getD 0

/-- How many statements a text begins when it is submitted. -/
def begun (s : Script) (text : String) : Nat :=
  (s.titled none s.name).beginsAll (lex text s.nextLine).tokens

/-! ## One token -/

theorem statementCount_of_isIncomplete {s : Script} (h : s.isIncomplete = true) :
    s.statementCount = s.instructions.size + 1 := by simp [statementCount, h]

/-- An instruction that settles is a statement, waits to become one, or belongs to the one that
waits. -/
theorem statementCount_settle (s : Script) (h : s.current = none) (i : Instruction) :
    (s.settle i).statementCount = s.instructions.size + 1 := by
  unfold settle
  split
  · simp [statementCount, isIncomplete]
  · cases hblocks : s.openBlocks with
    | nil => simp [statementCount, isIncomplete, h]
    | cons block blocks => simp [statementCount, isIncomplete]

/-- A token adds the statements that it begins, and gives out at least as many ids. -/
theorem Stepped.counts {s next : Script} {t : Token} {owner : Option Nat}
    (h : Stepped s t next owner) :
    next.statementCount = s.statementCount + s.begins t ∧ s.nextId + s.begins t ≤ next.nextId := by
  have hwaits : ∀ i, s.current = some i → s.begins t = 0 ∧
      s.statementCount = s.unwaited.instructions.size + 1 := by
    intro i hi
    have hincomplete : s.isIncomplete = true := by simp [isIncomplete, hi]
    exact ⟨by simp [begins, hincomplete], statementCount_of_isIncomplete hincomplete⟩
  cases h with
  | idle hc hk => simp [begins, Token.isBlank, hk]
  | started command hc hk hl =>
    have hblank : t.isBlank = false := by rcases hk with hk | hk <;> simp [Token.isBlank, hk]
    rw [statementCount_settle { s with nextId := s.nextId + 1 } hc, nextId_settle]
    cases hs : s.isIncomplete <;> simp [statementCount, begins, hblank, hs]
  | closed block blocks hc ho hk =>
    have hincomplete : s.isIncomplete = true := by simp [isIncomplete, ho]
    rw [statementCount_settle { s with openBlocks := blocks } hc, nextId_settle,
      statementCount_of_isIncomplete hincomplete]
    simp [begins, hincomplete]
  | ignored i hc hf =>
    obtain ⟨hbegins, hcount⟩ := hwaits i hc
    rw [statementCount_settle s.unwaited rfl, nextId_settle, hbegins, hcount]
    exact ⟨rfl, Nat.le_refl _⟩
  | bound i j hc hf =>
    obtain ⟨hbegins, hcount⟩ := hwaits i hc
    rw [statementCount_settle s.unwaited rfl, nextId_settle, hbegins, hcount]
    exact ⟨rfl, Nat.le_refl _⟩
  | opened i param hc hf =>
    obtain ⟨hbegins, hcount⟩ := hwaits i hc
    rw [hbegins, hcount]
    exact ⟨statementCount_of_isIncomplete (by simp [isIncomplete]), Nat.le_refl _⟩

theorem counts_take? {s r : Script} {t : Token} (h : s.take? t = some r) :
    r.statementCount = s.statementCount + s.begins t ∧ s.nextId + s.begins t ≤ r.nextId := by
  obtain ⟨next, owner, hstepped, rfl⟩ := stepped_of_take? h
  exact hstepped.counts

/-! ## All tokens -/

theorem counts_takeAll? {s r : Script} {tokens : List Token} (h : s.takeAll? tokens = some r) :
    r.statementCount = s.statementCount + s.beginsAll tokens ∧
      s.nextId + s.beginsAll tokens ≤ r.nextId := by
  induction h using takeAll?_induction with
  | nil => simp [beginsAll]
  | cons hnext _ ih =>
    have hfirst := counts_take? hnext
    simp only [beginsAll, hnext, Option.map_some, Option.getD_some]
    omega

/-- An accepted text adds the statements that it begins. -/
theorem counts_submitted? {s r : Script} {text : String} (h : s.submitted? text = some r) :
    r.statementCount = s.statementCount + s.begun text ∧ s.nextId + s.begun text ≤ r.nextId :=
  counts_takeAll? h

/-- A submission that gives out an id has been accepted, and adds the statements that it
begins. -/
theorem statementCount_submit_of_ne {s : Script} {text : String}
    (h : (s.submit text).nextId ≠ s.nextId) :
    (s.submit text).statementCount = s.statementCount + s.begun text := by
  cases hr : s.submitted? text with
  | none =>
    obtain ⟨e, he⟩ := submit_of_none hr
    rw [he] at h
    exact absurd rfl h
  | some r =>
    rw [submit_of_some hr]
    exact (counts_submitted? hr).1

/-- A submission without a new id leaves the number of statements as it is. -/
theorem statementCount_submit_of_eq {s : Script} {text : String}
    (h : (s.submit text).nextId = s.nextId) :
    (s.submit text).statementCount = s.statementCount := by
  cases hr : s.submitted? text with
  | none =>
    obtain ⟨e, he⟩ := submit_of_none hr
    rw [he]
    rfl
  | some r =>
    rw [submit_of_some hr] at h ⊢
    have hcounts := counts_submitted? hr
    omega

end TurtleScript.Script
