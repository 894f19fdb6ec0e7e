-- What one accepted token can do. There are six ways, and every invariant of
-- the parser is shown by going through them once.
import TurtleScript.Proofs.Taking

namespace TurtleScript.Script

/-! ## Waiting instructions -/

theorem isIncomplete_eq_false_iff {s : Script} :
    s.isIncomplete = false ↔ s.current = none ∧ s.openBlocks = [] := by
  simp [isIncomplete]

/-- An instruction that waits always has an owner: the outermost open one, or itself. -/
theorem owner?_isSome {s : Script} (h : s.isIncomplete = true) : s.owner?.isSome = true := by
  unfold owner?
  cases hlast : s.openBlocks.getLast? with
  | some block => rfl
  | none =>
    rw [List.getLast?_eq_none_iff] at hlast
    simpa [isIncomplete, hlast] using h

theorem owner?_or {s : Script} (h : s.isIncomplete = true) (o : Option Nat) :
    s.owner?.or o = s.owner? := by
  obtain ⟨id, hid⟩ := Option.isSome_iff_exists.mp (owner?_isSome h)
  rw [hid]
  rfl

@[simp] theorem nextId_settle (s : Script) (i : Instruction) : (s.settle i).nextId = s.nextId := by
  unfold settle
  split
  · rfl
  · split <;> rfl

/-! ## One token -/

/-- The script while its waiting instruction is being fed. -/
def unwaited (s : Script) : Script := { s with current := none }

/-- The ways in which a token can be accepted, with what becomes of the script and the tag that
the token gets. -/
inductive Stepped (s : Script) (t : Token) : Script → Option Nat → Prop
  | idle : s.current = none → t.kind = .whitespace → Stepped s t s s.owner?
  | started (command : Command) : s.current = none → t.kind = .word ∨ t.kind = .number →
      Command.lookup? t.text = some command →
      Stepped s t ({ s with nextId := s.nextId + 1 }.settle (.new s.nextId command))
        (s.owner?.or (some s.nextId))
  | closed (block : OpenBlock) (blocks : List OpenBlock) : s.current = none →
      s.openBlocks = block :: blocks → t.kind = .bracketClose →
      Stepped s t ({ s with openBlocks := blocks }.settle
        (block.instruction.bind (.block block.param block.statements.toList))) s.owner?
  | ignored (i : Instruction) : s.current = some i → i.feed t = .ok .ignored →
      Stepped s t (s.unwaited.settle i) s.owner?
  | bound (i j : Instruction) : s.current = some i → i.feed t = .ok (.bound j) →
      Stepped s t (s.unwaited.settle j) s.owner?
  | opened (i : Instruction) (param : Param) : s.current = some i → i.feed t = .ok (.opens param) →
      Stepped s t { s.unwaited with openBlocks := ⟨i, param, #[]⟩ :: s.openBlocks } s.owner?

/-- An accepted token is accepted in one of the ways. -/
theorem stepped_of_step {s next : Script} {t : Token} {owner : Option Nat}
    (h : s.step t = .ok (next, owner)) : Stepped s t next owner := by
  unfold step at h
  cases hc : s.current with
  | some i =>
    have hwaits : s.isIncomplete = true := by simp [isIncomplete, hc]
    have howner := owner?_or hwaits (some i.id)
    simp only [hc, stepInside, howner] at h
    cases hf : i.feed t with
    | error fault => simp [hf, Except.map] at h
    | ok fed =>
      cases fed with
      | ignored =>
        simp only [hf, Except.map, Except.ok.injEq, Prod.mk.injEq] at h
        obtain ⟨rfl, rfl⟩ := h
        exact .ignored i hc hf
      | bound j =>
        simp only [hf, Except.map, Except.ok.injEq, Prod.mk.injEq] at h
        obtain ⟨rfl, rfl⟩ := h
        exact .bound i j hc hf
      | opens param =>
        simp only [hf, Except.map, Except.ok.injEq, Prod.mk.injEq] at h
        obtain ⟨rfl, rfl⟩ := h
        exact .opened i param hc hf
  | none =>
    have hnone : s.owner?.or none = s.owner? := Option.or_none
    simp only [hc, stepOutside] at h
    cases hk : t.kind with
    | whitespace =>
      simp only [hk, Except.map, Except.ok.injEq, Prod.mk.injEq, hnone] at h
      obtain ⟨rfl, rfl⟩ := h
      exact .idle hc hk
    | bracketOpen => simp [hk, Except.map] at h
    | bracketClose =>
      cases ho : s.openBlocks with
      | nil => simp [hk, ho, Except.map] at h
      | cons block blocks =>
        simp only [hk, ho, closeBlock, List.isEmpty_cons, Bool.false_eq_true, if_false, Except.map,
          Except.ok.injEq, Prod.mk.injEq, hnone] at h
        obtain ⟨rfl, rfl⟩ := h
        exact .closed block blocks hc ho hk
    | word | number =>
      cases hl : Command.lookup? t.text with
      | none => simp [hk, hl, Except.map] at h
      | some command =>
        simp only [hk, hl, Except.map, Except.ok.injEq, Prod.mk.injEq] at h
        obtain ⟨rfl, rfl⟩ := h
        have hstarted := Stepped.started command hc (by simp [hk]) hl
        rw [hc] at hstarted
        exact hstarted

theorem stepped_of_take? {s r : Script} {t : Token} (h : s.take? t = some r) :
    ∃ next owner, Stepped s t next owner ∧ r = { next with tokens := s.tokens.push ⟨t, owner⟩ } := by
  unfold take? at h
  cases hstep : s.step t with
  | error fault => simp [hstep] at h
  | ok p =>
    obtain ⟨next, owner⟩ := p
    simp only [hstep, Option.some.injEq] at h
    exact ⟨next, owner, stepped_of_step hstep, by rw [← h, tokens_of_step hstep]⟩

/-! ## Arguments -/

/-- What feeding a call can bind: a number that suits its first open parameter. -/
theorem bound_of_feed {i j : Instruction} {t : Token} (h : i.feed t = .ok (.bound j)) :
    ∃ param x, i.nextParam? = some param ∧ param.kind ≠ .block ∧ (t.kind = .word ∨ t.kind = .number) ∧
      numberFor i.command param t = .ok x ∧ j = i.bind (.number param x) := by
  unfold Instruction.feed at h
  cases hp : i.nextParam? with
  | none => simp [hp] at h
  | some param =>
    simp only [hp] at h
    cases hk : param.kind <;> cases ht : t.kind <;> simp only [hk, ht] at h
    all_goals try cases h
    all_goals
      cases hx : numberFor i.command param t with
      | error fault => simp [hx, Except.map] at h
      | ok x =>
        simp only [hx, Except.map, Except.ok.injEq, CallStep.bound.injEq] at h
        exact ⟨param, x, rfl, by simp [hk], by simp, hx, h.symm⟩

/-- A block is opened by its bracket only. -/
theorem opens_of_feed {i : Instruction} {t : Token} {param : Param}
    (h : i.feed t = .ok (.opens param)) :
    i.nextParam? = some param ∧ param.kind = .block ∧ t.kind = .bracketOpen := by
  unfold Instruction.feed at h
  cases hp : i.nextParam? with
  | none => simp [hp] at h
  | some p =>
    simp only [hp] at h
    cases hk : p.kind <;> cases ht : t.kind <;> simp only [hk, ht] at h
    all_goals first
      | (cases h; exact ⟨rfl, hk, rfl⟩)
      | (cases hx : numberFor i.command p t <;> simp [hx, Except.map] at h)

/-- White space is skipped, and a call that waits for nothing skips everything. -/
theorem ignored_of_feed {i : Instruction} {t : Token} (h : i.feed t = .ok .ignored) :
    i.nextParam? = none ∨ t.kind = .whitespace := by
  unfold Instruction.feed at h
  cases hp : i.nextParam? with
  | none => exact Or.inl rfl
  | some p =>
    simp only [hp] at h
    cases hk : p.kind <;> cases ht : t.kind <;> simp only [hk, ht] at h
    all_goals first
      | exact Or.inr rfl
      | (cases hx : numberFor i.command p t <;> simp [hx, Except.map] at h)

end TurtleScript.Script
