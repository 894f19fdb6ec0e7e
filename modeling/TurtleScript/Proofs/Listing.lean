-- The ids of a script, listed in the order in which its calls begin: first the
-- statements, then the open blocks from the outside in, then the call that is
-- waiting. A token adds the next id to the end of the list or leaves the list
-- as it is, so the list counts from zero without a gap.
import TurtleScript.Proofs.Rebuilding
import TurtleScript.Proofs.Typing

namespace TurtleScript

/-! ## Lists of ids -/

/-- The ids of instructions, each followed by the ids in its blocks. -/
def idsOf (body : List Instruction) : List Nat := (bodyCalls body).map (·.id)

/-- The id of the call whose block is open, and then those of the statements in the block. -/
def OpenBlock.ids (block : OpenBlock) : List Nat :=
  block.instruction.id :: idsOf block.statements.toList

/-- All ids of a script, in the order in which the calls begin. -/
def Script.ids (s : Script) : List Nat :=
  idsOf s.instructions.toList ++ s.openBlocks.reverse.flatMap OpenBlock.ids ++
    (s.current.map (·.id)).toList

theorem bodyCalls_append (xs ys : List Instruction) :
    bodyCalls (xs ++ ys) = bodyCalls xs ++ bodyCalls ys := by
  induction xs with
  | nil => rfl
  | cons i xs ih => rw [List.cons_append, bodyCalls, bodyCalls, ih, List.append_assoc]

theorem argCalls_append (xs ys : List Arg) : argCalls (xs ++ ys) = argCalls xs ++ argCalls ys := by
  induction xs with
  | nil => rfl
  | cons a xs ih =>
    cases a with
    | number => rw [List.cons_append, argCalls, argCalls, ih]
    | block => rw [List.cons_append, argCalls, argCalls, ih, List.append_assoc]

theorem idsOf_append (xs ys : List Instruction) : idsOf (xs ++ ys) = idsOf xs ++ idsOf ys := by
  rw [idsOf, bodyCalls_append, List.map_append]
  rfl

theorem idsOf_singleton (i : Instruction) :
    idsOf [i] = i.id :: (argCalls i.args).map (·.id) := by
  obtain ⟨id, command, args, complete⟩ := i
  simp [idsOf, bodyCalls, Instruction.calls]

theorem id_mem_idsOf {i : Instruction} {body : List Instruction} (h : i ∈ body) :
    i.id ∈ idsOf body := by
  obtain ⟨xs, ys, rfl⟩ := List.append_of_mem h
  have hi : i.id ∈ idsOf [i] := by simp [idsOf_singleton]
  have hsplit : xs ++ i :: ys = xs ++ [i] ++ ys := by simp
  rw [hsplit, idsOf_append, idsOf_append]
  exact List.mem_append_left _ (List.mem_append_right _ hi)

/-! ## Calls that are still read -/

/-- Only the last parameter of a command can be a block. -/
theorem kind_ne_block_of_params_eq {command : Command} {bound rest : List Param}
    (h : command.params = bound ++ rest) (hrest : rest ≠ []) :
    ∀ param ∈ bound, param.kind ≠ .block := by
  have hlast : ∀ param ∈ command.params.dropLast, param.kind ≠ .block := by
    cases command <;> decide
  rw [h, List.dropLast_append_of_ne_nil hrest] at hlast
  exact fun param hp => hlast param (List.mem_append_left _ hp)

namespace Instruction

/-- A call has no block yet as long as a parameter is left. -/
theorem WellTyped.argCalls_eq_nil {i : Instruction} (h : i.WellTyped) {param : Param}
    {params : List Param} (hparams : i.command.params = i.args.map Arg.param ++ param :: params) :
    argCalls i.args = [] := by
  have hkind := kind_ne_block_of_params_eq hparams (List.cons_ne_nil _ _)
  have hargs := h.args
  obtain ⟨id, command, args, complete⟩ := i
  simp only at hkind hargs ⊢
  clear h hparams
  induction args with
  | nil => rfl
  | cons a args ih =>
    have hrest := ih (fun p hp => hkind p (List.mem_cons_of_mem _ hp))
      (fun b hb => hargs b (List.mem_cons_of_mem _ hb))
    cases hargs a List.mem_cons_self with
    | number => exact hrest
    | block hblock => exact absurd hblock (hkind _ List.mem_cons_self)

/-- A call that waits has a next parameter. -/
theorem WellTyped.exists_params {i : Instruction} (h : i.WellTyped) (hi : i.isComplete = false) :
    ∃ param params, i.command.params = i.args.map Arg.param ++ param :: params := by
  obtain ⟨rest, hrest⟩ := h.bound
  cases rest with
  | nil =>
    have hcomplete : i.isComplete = true := by
      rw [h.isComplete_iff, ← hrest]
      simp
    rw [hi] at hcomplete
    cases hcomplete
  | cons param params => exact ⟨param, params, hrest.symm⟩

/-- A call with a new number has no other ids than before. -/
theorem WellTyped.idsOf_bind_number {i : Instruction} (h : i.WellTyped) {param : Param} {x : Float}
    (hnext : i.nextParam? = some param) : idsOf [i.bind (.number param x)] = [i.id] := by
  obtain ⟨params, hparams⟩ := h.params_eq hnext
  have hnone := h.argCalls_eq_nil hparams
  obtain ⟨id, command, args, complete⟩ := i
  rw [Script.bind_eq hparams rfl, idsOf_singleton, argCalls_append]
  simp only at hnone
  simp [hnone, argCalls]

/-- A block is the last that a call waits for; then it has the ids of the block. -/
theorem WellTyped.bind_block {i : Instruction} (h : i.WellTyped) {param : Param}
    (hnext : i.nextParam? = some param) (hkind : param.kind = .block) (body : List Instruction) :
    (i.bind (.block param body)).isComplete = true ∧
      idsOf [i.bind (.block param body)] = i.id :: idsOf body := by
  obtain ⟨params, hparams⟩ := h.params_eq hnext
  have hlast : params = [] := by
    by_contra hne
    have hsplit : i.command.params = (i.args.map Arg.param ++ [param]) ++ params := by
      rw [hparams, List.append_assoc]
      rfl
    exact kind_ne_block_of_params_eq hsplit hne param (by simp) hkind
  have hnone := h.argCalls_eq_nil hparams
  obtain ⟨id, command, args, complete⟩ := i
  subst hlast
  rw [Script.bind_eq hparams rfl, idsOf_singleton, argCalls_append]
  simp only at hnone
  simp [hnone, argCalls, idsOf]

end Instruction

/-! ## One token -/

namespace Script

/-- A call that settles while none waits comes last. -/
theorem ids_settle {s : Script} (hc : s.current = none) {i : Instruction}
    (hi : i.isComplete = false → idsOf [i] = [i.id]) : (s.settle i).ids = s.ids ++ idsOf [i] := by
  unfold settle
  split
  · next hwaits =>
    rw [hi hwaits]
    simp [ids, hc]
  · split
    · next block blocks ho =>
      simp [ids, hc, ho, OpenBlock.ids, idsOf_append]
    · next ho =>
      simp [ids, hc, ho, idsOf_append]

theorem ids_of_current {s : Script} {i : Instruction} (hc : s.current = some i) :
    s.ids = s.unwaited.ids ++ [i.id] := by
  simp [ids, unwaited, hc]

/-- A token begins one call, with the next id, or none. -/
theorem WellTyped.ids_stepped {s next : Script} {t : Token} {owner : Option Nat} (h : s.WellTyped)
    (hs : Stepped s t next owner) :
    next.ids = s.ids ∧ next.nextId = s.nextId ∨
      next.ids = s.ids ++ [s.nextId] ∧ next.nextId = s.nextId + 1 := by
  have hwaits : ∀ i : Instruction, i.WellTyped → i.isComplete = false → idsOf [i] = [i.id] := by
    intro i htyped hi
    obtain ⟨param, params, hparams⟩ := htyped.exists_params hi
    rw [idsOf_singleton, htyped.argCalls_eq_nil hparams]
    rfl
  cases hs with
  | idle => exact Or.inl ⟨rfl, rfl⟩
  | started command hc hk hl =>
    have hnew : idsOf [Instruction.new s.nextId command] = [s.nextId] := by
      rw [idsOf_singleton]
      rfl
    have hcurrent : ({ s with nextId := s.nextId + 1 } : Script).current = none := hc
    refine Or.inr ⟨?_, nextId_settle _ _⟩
    rw [ids_settle hcurrent fun _ => hnew, hnew]
    rfl
  | closed block blocks hc ho hk =>
    have hblock : block.WellTyped := h.blocks block (by simp [ho])
    obtain ⟨hcomplete, hids⟩ :=
      hblock.instruction.bind_block hblock.next hblock.kind block.statements.toList
    have hcurrent : ({ s with openBlocks := blocks } : Script).current = none := hc
    refine Or.inl ⟨?_, nextId_settle _ _⟩
    rw [ids_settle hcurrent fun hi => absurd hi (by simp [hcomplete]), hids]
    simp [ids, hc, ho, OpenBlock.ids]
  | ignored i hc hf =>
    obtain ⟨htyped, hi⟩ := h.current i hc
    have hids := hwaits i htyped hi
    refine Or.inl ⟨?_, nextId_settle _ _⟩
    rw [ids_settle rfl fun _ => hids, hids, ids_of_current hc]
  | bound i j hc hf =>
    obtain ⟨param, x, hnext, -, -, -, rfl⟩ := bound_of_feed hf
    have hids := (h.current i hc).1.idsOf_bind_number (x := x) hnext
    refine Or.inl ⟨?_, nextId_settle _ _⟩
    rw [ids_settle rfl fun _ => hids, hids, ids_of_current hc]
  | opened i param hc hf =>
    refine Or.inl ⟨?_, rfl⟩
    rw [ids_of_current hc]
    simp [Script.ids, Script.unwaited, OpenBlock.ids, idsOf, bodyCalls]

/-! ## All tokens -/

/-- The ids are those that were given out, in order. -/
structure Counted (s : Script) : Prop where
  typed : s.WellTyped
  ids : s.ids = List.range s.nextId

theorem counted_empty : empty.Counted := ⟨wellTyped_empty, rfl⟩

theorem Counted.take? {s r : Script} {t : Token} (h : s.Counted) (ht : s.take? t = some r) :
    r.Counted := by
  obtain ⟨next, owner, hstepped, rfl⟩ := stepped_of_take? ht
  have htyped := h.typed.stepped hstepped
  refine ⟨⟨htyped.statements, htyped.current, htyped.blocks⟩, ?_⟩
  have hids : next.ids = List.range next.nextId := by
    rcases h.typed.ids_stepped hstepped with ⟨hsame, hid⟩ | ⟨hmore, hid⟩
    · rw [hsame, hid, h.ids]
    · rw [hmore, hid, h.ids, List.range_succ]
  exact hids

theorem Counted.takeAll? {s r : Script} {tokens : List Token} (h : s.Counted)
    (hr : s.takeAll? tokens = some r) : r.Counted := by
  induction hr using takeAll?_induction with
  | nil => exact h
  | cons hnext _ ih => exact ih (h.take? hnext)

theorem Faithful.counted {s : Script} (h : s.Faithful) : s.Counted := by
  have hbare := counted_empty.takeAll? h.rebuilt
  exact ⟨⟨hbare.typed.statements, hbare.typed.current, hbare.typed.blocks⟩, hbare.ids⟩

/-! ## Refused tokens -/

/-- All ids are ones that were given out. A refused token leaves gaps, but no more. -/
structure Bounded (s : Script) : Prop where
  typed : s.WellTyped
  ids : ∀ id ∈ s.ids, id < s.nextId

theorem Counted.bounded {s : Script} (h : s.Counted) : s.Bounded :=
  ⟨h.typed, fun id hid => by simpa [h.ids] using hid⟩

theorem Bounded.accept {s : Script} (h : s.Bounded) (t : Token) : (s.accept t).Bounded := by
  refine ⟨h.typed.accept t, ?_⟩
  unfold Script.accept
  cases hstep : s.step t with
  | error fault =>
    intro id hid
    have hmem : id ∈ idsOf s.instructions.toList := by simpa [Script.ids] using hid
    exact h.ids id (List.mem_append_left _ (List.mem_append_left _ hmem))
  | ok p =>
    obtain ⟨next, owner⟩ := p
    have hnext : ∀ id ∈ next.ids, id < next.nextId := by
      intro id hid
      rcases h.typed.ids_stepped (stepped_of_step hstep) with ⟨hsame, heq⟩ | ⟨hmore, heq⟩
      · rw [hsame] at hid
        rw [heq]
        exact h.ids id hid
      · rw [hmore, List.mem_append, List.mem_singleton] at hid
        rw [heq]
        rcases hid with hid | rfl
        · exact Nat.lt_succ_of_lt (h.ids id hid)
        · exact Nat.lt_succ_self _
    exact hnext

theorem Bounded.replay {s : Script} (h : s.Bounded) (tokens : List Token) :
    (s.replay tokens).Bounded := by
  induction tokens generalizing s with
  | nil => exact h
  | cons t tokens ih => exact ih (h.accept t)

/-! ## The law of numbering -/

/-- In every script that a store can hold the ids in the order of the calls are `0, 1, 2, …` up to
the next one; so none stands twice. And whatever tokens the script takes after that, refused ones
among them: when a token completes a statement, the id of the statement has been given out. -/
theorem ids_count_the_calls (actions : List Action) (s : Script)
    (h : s ∈ (Store.after actions).script.entries) :
    s.ids = List.range s.nextId ∧ s.ids.Nodup ∧ (∀ id ∈ s.ids, id < s.nextId) ∧
    ∀ (tokens : List Token) (t : Token) (i : Instruction),
      let before := ({ s with error := none } : Script).replay tokens
      let next := before.accept t
      next.instructions = before.instructions.push i →
        i.command.isWriteProtected = true → i.id < next.nextId := by
  have hcounted := (Store.faithful_of_mem_entries h).counted
  refine ⟨hcounted.ids, ?_, hcounted.bounded.ids, ?_⟩
  · rw [hcounted.ids]
    exact List.nodup_range
  · intro tokens t i before next hpush _
    have htitled : ({ s with error := none } : Script).Bounded :=
      ⟨⟨hcounted.typed.statements, hcounted.typed.current, hcounted.typed.blocks⟩,
        hcounted.bounded.ids⟩
    have hnext : next.Bounded := (htitled.replay tokens).accept t
    have hmem : i ∈ next.instructions.toList := by simp [hpush]
    exact hnext.ids i.id (List.mem_append_left _ (List.mem_append_left _ (id_mem_idsOf hmem)))

/-- Two statements, one with a block in its block, and a third that is waiting in two open
blocks; a line is refused on the way. -/
def nestedActions : List Action :=
  [.submit "fd 7 rp 2 [ pu rp 3 [ rt 90 ] ]", .submit "bk 1 turn", .rename "draft",
    .submit "rp 4 [ pd rp 5 [ lt 30 bk"]

theorem nested_ids_count_the_calls :
    (Store.after nestedActions).present ∈ (Store.after nestedActions).script.entries ∧
    (Store.after nestedActions).present.ids = [0, 1, 2, 3, 4, 5, 6, 7, 8, 9] ∧
    (Store.after nestedActions).present.owner? = some 5 := by
  have hmem := (Store.after nestedActions).present_mem_entries
  have hstate : (Store.after nestedActions).present.nextId = 10 ∧
      (Store.after nestedActions).present.owner? = some 5 := by decide +kernel
  obtain ⟨hids, -⟩ := ids_count_the_calls nestedActions _ hmem
  rw [hstate.1] at hids
  exact ⟨hmem, hids, hstate.2⟩

end Script

end TurtleScript
