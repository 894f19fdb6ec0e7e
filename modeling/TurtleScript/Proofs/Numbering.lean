-- The ids that a script has given out. All of them are below the next one, on
-- what waits and on the tokens taken, and every id was started by a token of
-- its own.
import TurtleScript.Proofs.Stepping
import TurtleScript.Proofs.Taking

namespace TurtleScript.Script

/-! ## What waits -/

/-- What waits for more tokens has ids below `n`. -/
structure WaitsBelow (s : Script) (n : Nat) : Prop where
  current : ∀ i, s.current = some i → i.id < n
  blocks : ∀ block ∈ s.openBlocks, block.instruction.id < n

theorem WaitsBelow.mono {s : Script} {m n : Nat} (h : s.WaitsBelow m) (hmn : m ≤ n) :
    s.WaitsBelow n :=
  ⟨fun i hi => Nat.lt_of_lt_of_le (h.current i hi) hmn,
    fun block hb => Nat.lt_of_lt_of_le (h.blocks block hb) hmn⟩

theorem WaitsBelow.owner?_lt {s : Script} {n id : Nat} (h : s.WaitsBelow n)
    (hid : s.owner? = some id) : id < n := by
  unfold owner? at hid
  cases hlast : s.openBlocks.getLast? with
  | some block =>
    simp only [hlast, Option.some.injEq] at hid
    rw [← hid]
    exact h.blocks block (List.mem_of_getLast? hlast)
  | none =>
    simp only [hlast, Option.map_eq_some_iff] at hid
    obtain ⟨i, hi, rfl⟩ := hid
    exact h.current i hi

/-- An instruction that settles leaves all other ids where they are. -/
theorem WaitsBelow.settle {s : Script} {n : Nat} (h : s.WaitsBelow n) {i : Instruction}
    (hi : i.id < n) : (s.settle i).WaitsBelow n := by
  unfold Script.settle
  by_cases hc : i.isComplete = false
  · rw [if_pos hc]
    refine ⟨?_, h.blocks⟩
    intro j hj
    cases hj
    exact hi
  · rw [if_neg hc]
    cases hb : s.openBlocks with
    | nil => exact ⟨h.current, fun _ hmem => by simp at hmem⟩
    | cons block blocks =>
      have hblocks := h.blocks
      rw [hb] at hblocks
      refine ⟨h.current, ?_⟩
      intro b hmem
      rcases List.mem_cons.mp hmem with rfl | hmem
      · exact hblocks block List.mem_cons_self
      · exact hblocks b (List.mem_cons_of_mem _ hmem)

theorem WaitsBelow.unwaited {s : Script} {n : Nat} (h : s.WaitsBelow n) : s.unwaited.WaitsBelow n :=
  ⟨fun _ hi => absurd hi (by simp [Script.unwaited]), h.blocks⟩

/-! ## One token -/

/-- A token starts at most one instruction, and its tag is an id that has been given out. -/
theorem WaitsBelow.stepped {s next : Script} {t : Token} {owner : Option Nat}
    (h : s.WaitsBelow s.nextId) (hs : Stepped s t next owner) :
    next.WaitsBelow next.nextId ∧ s.nextId ≤ next.nextId ∧ next.nextId ≤ s.nextId + 1 ∧
      ∀ id, owner = some id → id < next.nextId := by
  have howner : ∀ id, s.owner? = some id → id < s.nextId := fun id hid => h.owner?_lt hid
  cases hs with
  | idle hc hk => exact ⟨h, Nat.le_refl _, Nat.le_succ _, howner⟩
  | started command hc hk hl =>
    have hlater := h.mono (Nat.le_succ s.nextId)
    have hmore : ({ s with nextId := s.nextId + 1 } : Script).WaitsBelow (s.nextId + 1) :=
      ⟨hlater.current, hlater.blocks⟩
    simp only [nextId_settle]
    refine ⟨hmore.settle (Nat.lt_succ_self _), Nat.le_succ _, Nat.le_refl _, ?_⟩
    intro id hid
    cases ho : s.owner? with
    | none =>
      simp only [ho, Option.none_or, Option.some.injEq] at hid
      omega
    | some o =>
      have := howner o ho
      simp only [ho, Option.some_or, Option.some.injEq] at hid
      omega
  | closed block blocks hc ho hk =>
    have hblocks := h.blocks
    rw [ho] at hblocks
    have hrest : ({ s with openBlocks := blocks } : Script).WaitsBelow s.nextId :=
      ⟨h.current, fun b hb => hblocks b (List.mem_cons_of_mem _ hb)⟩
    have hid : block.instruction.id < s.nextId := hblocks block List.mem_cons_self
    simp only [nextId_settle]
    exact ⟨hrest.settle hid, Nat.le_refl _, Nat.le_succ _, howner⟩
  | ignored i hc hf =>
    simp only [nextId_settle]
    exact ⟨h.unwaited.settle (h.current i hc), Nat.le_refl _, Nat.le_succ _, howner⟩
  | bound i j hc hf =>
    obtain ⟨param, x, -, -, -, -, rfl⟩ := bound_of_feed hf
    simp only [nextId_settle]
    exact ⟨h.unwaited.settle (h.current i hc), Nat.le_refl _, Nat.le_succ _, howner⟩
  | opened i param hc hf =>
    refine ⟨⟨fun _ hi => absurd hi (by simp [Script.unwaited]), ?_⟩, Nat.le_refl _, Nat.le_succ _,
      howner⟩
    intro b hb
    rcases List.mem_cons.mp hb with rfl | hb
    · exact h.current i hc
    · exact h.blocks b hb

/-! ## All tokens -/

/-- All ids given out are below the next one, and no more were given out than tokens taken. -/
structure Numbered (s : Script) : Prop where
  waits : s.WaitsBelow s.nextId
  tags : ∀ t ∈ s.tokens.toList, ∀ id, t.owner = some id → id < s.nextId
  spent : s.nextId ≤ s.tokens.size

theorem numbered_empty : empty.Numbered :=
  ⟨⟨fun _ hi => (by cases hi), fun _ hb => (by cases hb)⟩, fun _ ht => (by simp [empty] at ht),
    Nat.le_refl _⟩

theorem Numbered.take? {s r : Script} {t : Token} (h : s.Numbered) (ht : s.take? t = some r) :
    r.Numbered := by
  obtain ⟨next, owner, hstepped, rfl⟩ := stepped_of_take? ht
  obtain ⟨hwaits, hle, hsucc, howner⟩ := h.waits.stepped hstepped
  refine ⟨⟨hwaits.current, hwaits.blocks⟩, ?_, ?_⟩
  · intro u hu id hid
    simp only [Array.toList_push, List.mem_append, List.mem_singleton] at hu
    rcases hu with hu | rfl
    · exact Nat.lt_of_lt_of_le (h.tags u hu id hid) hle
    · exact howner id hid
  · have hspent := h.spent
    simp only [Array.size_push]
    omega

theorem Numbered.takeAll? {s r : Script} {tokens : List Token} (h : s.Numbered)
    (hr : s.takeAll? tokens = some r) : r.Numbered := by
  induction hr using takeAll?_induction with
  | nil => exact h
  | cons hnext _ ih => exact ih (h.take? hnext)

end TurtleScript.Script
