-- Every call that the parser makes is well typed, whether the tokens are
-- accepted or not: its arguments are bound in the order of the parameters, each
-- to a value of its kind, and it is marked complete once all of them are. So
-- what an instruction asks for when it is performed is always there.
import TurtleScript.Proofs.Advancing

namespace TurtleScript

/-! ## Types -/

/-- The numbers that a parameter can be given: the finite ones, and for a count the whole ones up
to the largest count. -/
def Param.Holds (param : Param) (x : Float) : Prop :=
  param.kind ≠ .block ∧ x.isFinite = true ∧
    (param.kind = .integer → isWhole x = true ∧ x ≤ Float.ofNat maxTimes)

mutual
/-- The bound parameters are the first ones of the command, in order; the call is marked complete
exactly if all of them are bound. -/
inductive Instruction.WellTyped : Instruction → Prop
  | call {i : Instruction} : i.args.map Arg.param <+: i.command.params →
      (i.isComplete = true ↔ ∀ param ∈ i.command.params, param ∈ i.args.map Arg.param) →
      (∀ arg ∈ i.args, arg.WellTyped) → i.WellTyped

/-- A parameter is given a value of its kind. A block holds complete calls. -/
inductive Arg.WellTyped : Arg → Prop
  | number {param : Param} {x : Float} : param.Holds x → (Arg.number param x).WellTyped
  | block {param : Param} {body : List Instruction} : param.kind = .block →
      (∀ i ∈ body, i.WellTyped) → (∀ i ∈ body, i.isComplete = true) →
      (Arg.block param body).WellTyped
end

/-- A well-typed call that waits for nothing. -/
def Instruction.IsFinished (i : Instruction) : Prop := i.WellTyped ∧ i.isComplete = true

/-- An open block fills the next parameter of a call that waits for it. -/
structure OpenBlock.WellTyped (block : OpenBlock) : Prop where
  instruction : block.instruction.WellTyped
  waits : block.instruction.isComplete = false
  next : block.instruction.nextParam? = some block.param
  kind : block.param.kind = .block
  statements : ∀ i ∈ block.statements.toList, i.IsFinished

/-- All calls of a script are well typed. Those that are waiting are incomplete, and the others
are complete. -/
structure Script.WellTyped (s : Script) : Prop where
  statements : ∀ i ∈ s.instructions.toList, i.IsFinished
  current : ∀ i, s.current = some i → i.WellTyped ∧ i.isComplete = false
  blocks : ∀ block ∈ s.openBlocks, block.WellTyped

/-! ## Numbers -/

section Order

open Float.Model

/-- Finite doubles can be compared, either way round. -/
theorem exists_compare {a b : UnpackedFloat} (ha : a.isFinite = true) (hb : b.isFinite = true) :
    ∃ o, b.compare a = some o ∧ a.compare b = some o.swap := by
  cases a with
  | zero s => cases s <;> cases b with
    | zero r => exact ⟨_, rfl, rfl⟩
    | finite r => cases r <;> exact ⟨_, rfl, rfl⟩
    | _ => cases hb
  | finite s m e => cases b with
    | zero r => cases s <;> exact ⟨_, rfl, rfl⟩
    | finite r m' e' =>
      have he : compare e e' = (compare e' e).swap := Std.OrientedCmp.eq_swap
      have hm : compare m m' = (compare m' m).swap := Std.OrientedCmp.eq_swap
      have hboth : (compare e e').then (compare m m') =
          ((compare e' e).then (compare m' m)).swap := by
        rw [Ordering.swap_then, he, hm]
      cases s <;> cases r
      · exact ⟨_, rfl, congrArg (fun o => some (Ordering.swap o)) hboth⟩
      · exact ⟨_, rfl, rfl⟩
      · exact ⟨_, rfl, rfl⟩
      · exact ⟨_, rfl, congrArg some hboth⟩
    | _ => cases hb
  | _ => cases ha

/-- A finite double that is not above another one is at most that one. -/
theorem le_of_not_lt_of_isFinite {x y : Float} (hx : x.isFinite = true) (hy : y.isFinite = true)
    (h : ¬ y < x) : x ≤ y := by
  obtain ⟨o, hyx, hxy⟩ := exists_compare (a := x.toModel.unpack) (b := y.toModel.unpack) hx hy
  have hlt : ¬ decide (y.toModel.unpack.lt x.toModel.unpack = true) = true := h
  have hle : decide (x.toModel.unpack.le y.toModel.unpack = true) = true := by
    simp only [UnpackedFloat.lt, UnpackedFloat.le, hyx, hxy] at hlt ⊢
    cases o <;> simp at hlt ⊢
  exact hle

end Order

/-- The numbers that the parser takes for a parameter are numbers that it can be given. -/
theorem Param.Admits.holds {param : Param} {text : String} {x : Float} (h : param.Admits text x) :
    param.Holds x := by
  obtain ⟨hkind, hnumber, hcount⟩ := h
  have hfinite : x.isFinite = true := by
    unfold Decimal.number? at hnumber
    split at hnumber
    · cases hnumber
    · split at hnumber
      · next hf =>
        cases hnumber
        exact hf
      · cases hnumber
  have hlimit : (Float.ofNat maxTimes).isFinite = true := by decide +kernel
  refine ⟨hkind, hfinite, fun hk => ?_⟩
  obtain ⟨hwhole, hlarge⟩ := hcount hk
  exact ⟨hwhole, le_of_not_lt_of_isFinite hfinite hlimit hlarge⟩

/-! ## Binding -/

/-- Where no parameter comes twice, all of them are bound exactly if none is left. -/
theorem forall_mem_append_iff {bound rest : List Param} (h : (bound ++ rest).Nodup) :
    (∀ param ∈ bound ++ rest, param ∈ bound) ↔ rest = [] := by
  constructor
  · intro hall
    cases rest with
    | nil => rfl
    | cons param rest =>
      have hmem : param ∈ bound := hall param (by simp)
      exact absurd rfl ((List.nodup_append.mp h).2.2 param hmem param List.mem_cons_self)
  · rintro rfl
    simp

namespace Instruction

theorem WellTyped.bound {i : Instruction} (h : i.WellTyped) :
    i.args.map Arg.param <+: i.command.params := by
  cases h with
  | call hbound => exact hbound

theorem WellTyped.isComplete_iff {i : Instruction} (h : i.WellTyped) :
    i.isComplete = true ↔ ∀ param ∈ i.command.params, param ∈ i.args.map Arg.param := by
  cases h with
  | call _ hiff => exact hiff

theorem WellTyped.args {i : Instruction} (h : i.WellTyped) : ∀ arg ∈ i.args, arg.WellTyped := by
  cases h with
  | call _ _ hargs => exact hargs

theorem wellTyped_new (id : Nat) (command : Command) : (new id command).WellTyped := by
  have hcomplete : command.params.isEmpty = true ↔ ∀ param ∈ command.params, param ∈ [] := by
    cases command <;> decide
  exact .call List.nil_prefix hcomplete (by simp [new])

/-- The next parameter is the one after those that are bound. -/
theorem WellTyped.params_eq {i : Instruction} (h : i.WellTyped) {param : Param}
    (hnext : i.nextParam? = some param) :
    ∃ params, i.command.params = i.args.map Arg.param ++ param :: params := by
  obtain ⟨rest, hrest⟩ := h.bound
  unfold nextParam? at hnext
  rw [← hrest, List.getElem?_append_right (by simp)] at hnext
  cases rest with
  | nil => simp at hnext
  | cons p params =>
    obtain rfl : p = param := by simpa using hnext
    exact ⟨params, hrest.symm⟩

/-- A call stays well typed when its next parameter is given a value of its kind. -/
theorem WellTyped.bind {i : Instruction} (h : i.WellTyped) {param : Param} {arg : Arg}
    (hnext : i.nextParam? = some param) (hparam : arg.param = param) (harg : arg.WellTyped) :
    (i.bind arg).WellTyped := by
  subst hparam
  obtain ⟨params, hparams⟩ := h.params_eq hnext
  have hnodup := Script.params_nodup i.command
  have hargs := h.args
  obtain ⟨id, command, args, complete⟩ := i
  simp only at hparams hnodup hargs
  have hsplit : command.params = (args ++ [arg]).map Arg.param ++ params := by simp [hparams]
  rw [Script.bind_eq hparams rfl]
  refine .call ⟨params, hsplit.symm⟩ ?_ ?_
  · simp only [hsplit] at hnodup ⊢
    rw [forall_mem_append_iff hnodup, List.isEmpty_iff]
  · intro a ha
    rcases List.mem_append.mp ha with ha | ha
    · exact hargs a ha
    · obtain rfl := List.mem_singleton.mp ha
      exact harg

end Instruction

/-! ## One token -/

namespace Script

/-- A call that settles waits, or is one of the finished ones. -/
theorem WellTyped.settle {s : Script} (h : s.WellTyped) {i : Instruction} (hi : i.WellTyped) :
    (s.settle i).WellTyped := by
  unfold Script.settle
  split
  · next hwaits =>
    refine ⟨h.statements, ?_, h.blocks⟩
    intro j hj
    cases hj
    exact ⟨hi, hwaits⟩
  · next hcomplete =>
    have hfinished : i.IsFinished := ⟨hi, by simpa using hcomplete⟩
    split
    · next block blocks ho =>
      have hblocks := h.blocks
      rw [ho] at hblocks
      refine ⟨h.statements, h.current, ?_⟩
      intro b hb
      rcases List.mem_cons.mp hb with rfl | hb
      · obtain ⟨hinstruction, hwaits, hnext, hkind, hstatements⟩ :=
          hblocks block List.mem_cons_self
        refine ⟨hinstruction, hwaits, hnext, hkind, ?_⟩
        intro j hj
        simp only [Array.toList_push, List.mem_append, List.mem_singleton] at hj
        rcases hj with hj | rfl
        · exact hstatements j hj
        · exact hfinished
      · exact hblocks b (List.mem_cons_of_mem _ hb)
    · refine ⟨?_, h.current, h.blocks⟩
      intro j hj
      simp only [Array.toList_push, List.mem_append, List.mem_singleton] at hj
      rcases hj with hj | rfl
      · exact h.statements j hj
      · exact hfinished

theorem WellTyped.unwaited {s : Script} (h : s.WellTyped) : s.unwaited.WellTyped :=
  ⟨h.statements, fun _ hi => (by cases hi), h.blocks⟩

/-- What a token does is to settle a well-typed call, or nothing that the statements know of. -/
theorem WellTyped.settles {s next : Script} {t : Token} {owner : Option Nat} (h : s.WellTyped)
    (hs : Stepped s t next owner) :
    ∃ before : Script, before.WellTyped ∧ before.instructions = s.instructions ∧
      before.drawing = s.drawing ∧
      (next = before ∨ ∃ i : Instruction, i.WellTyped ∧ next = before.settle i) := by
  cases hs with
  | idle => exact ⟨s, h, rfl, rfl, Or.inl rfl⟩
  | started command =>
    have hmore : ({ s with nextId := s.nextId + 1 } : Script).WellTyped :=
      ⟨h.statements, h.current, h.blocks⟩
    exact ⟨_, hmore, rfl, rfl, Or.inr ⟨_, Instruction.wellTyped_new _ command, rfl⟩⟩
  | closed block blocks hc ho hk =>
    have hblocks := h.blocks
    rw [ho] at hblocks
    have hrest : ({ s with openBlocks := blocks } : Script).WellTyped :=
      ⟨h.statements, h.current, fun b hb => hblocks b (List.mem_cons_of_mem _ hb)⟩
    obtain ⟨hinstruction, -, hnext, hkind, hstatements⟩ := hblocks block List.mem_cons_self
    have harg : (Arg.block block.param block.statements.toList).WellTyped :=
      .block hkind (fun i hi => (hstatements i hi).1) (fun i hi => (hstatements i hi).2)
    exact ⟨_, hrest, rfl, rfl, Or.inr ⟨_, hinstruction.bind hnext rfl harg, rfl⟩⟩
  | ignored i hc => exact ⟨_, h.unwaited, rfl, rfl, Or.inr ⟨i, (h.current i hc).1, rfl⟩⟩
  | bound i j hc hf =>
    obtain ⟨param, x, hnext, hkind, -, hx, rfl⟩ := bound_of_feed hf
    have hholds : param.Holds x := ((numberFor_eq_ok_iff hkind).mp hx).holds
    have hbound := (h.current i hc).1.bind hnext rfl (.number hholds)
    exact ⟨_, h.unwaited, rfl, rfl, Or.inr ⟨_, hbound, rfl⟩⟩
  | opened i param hc hf =>
    obtain ⟨hnext, hkind, -⟩ := opens_of_feed hf
    obtain ⟨htyped, hwaits⟩ := h.current i hc
    have hblocks : ∀ b ∈ (⟨i, param, #[]⟩ : OpenBlock) :: s.openBlocks, b.WellTyped := by
      intro b hb
      rcases List.mem_cons.mp hb with rfl | hb
      · exact ⟨htyped, hwaits, hnext, hkind, by simp⟩
      · exact h.blocks b hb
    have hopened : ({ s.unwaited with openBlocks := ⟨i, param, #[]⟩ :: s.openBlocks } :
        Script).WellTyped := ⟨h.statements, h.unwaited.current, hblocks⟩
    exact ⟨_, hopened, rfl, rfl, Or.inl rfl⟩

theorem WellTyped.stepped {s next : Script} {t : Token} {owner : Option Nat} (h : s.WellTyped)
    (hs : Stepped s t next owner) : next.WellTyped := by
  obtain ⟨before, hbefore, -, -, rfl | ⟨i, hi, rfl⟩⟩ := h.settles hs
  · exact hbefore
  · exact hbefore.settle hi

/-- A refused token discards what is waiting, and leaves the statements alone. -/
theorem WellTyped.accept {s : Script} (h : s.WellTyped) (t : Token) : (s.accept t).WellTyped := by
  unfold Script.accept
  cases hstep : s.step t with
  | error fault =>
    exact ⟨h.statements, fun _ hi => (by cases hi), fun _ hb => (by cases hb)⟩
  | ok p =>
    obtain ⟨next, owner⟩ := p
    have hnext := h.stepped (stepped_of_step hstep)
    exact ⟨hnext.statements, hnext.current, hnext.blocks⟩

theorem wellTyped_empty : empty.WellTyped :=
  ⟨fun _ hi => (by simp [empty] at hi), fun _ hi => (by cases hi), fun _ hb => (by cases hb)⟩

theorem WellTyped.replay {s : Script} (h : s.WellTyped) (tokens : List Token) :
    (s.replay tokens).WellTyped := by
  induction tokens generalizing s with
  | nil => exact h
  | cons t tokens ih => exact ih (h.accept t)

end Script

/-! ## Performing without defaults -/

/-- The number bound to a parameter, if there is one. -/
def number? (param : Param) (args : List Arg) : Option Float :=
  match args.find? (·.param = param) with
  | some (.number _ value) => some value
  | _ => none

mutual
/-- Performs an instruction only if every number and every block that it asks for is there. -/
def Instruction.perform? : Instruction → Drawing → Option Drawing
  | ⟨_, command, args, _⟩, d =>
    match command with
    | .forward => (number? .distance args).map d.move
    | .back => (number? .distance args).map fun x => d.move (-x)
    | .left => (number? .angle args).map fun x => d.turn (-x)
    | .right => (number? .angle args).map d.turn
    | .loop => (number? .times args).bind fun x =>
        (performBlock? args).bind fun f => iterate (·.bind f) (countOf x) (some d)
    | .penUp => some (d.setPen false)
    | .penDown => some (d.setPen true)

def performBlock? : List Arg → Option (Drawing → Option Drawing)
  | [] => none
  | .number param _ :: args => if param = .statements then none else performBlock? args
  | .block param body :: args =>
    if param = .statements then some fun d => performAll? body d else performBlock? args

def performAll? : List Instruction → Drawing → Option Drawing
  | [], d => some d
  | i :: body, d => (i.perform? d).bind fun e => performAll? body e
end

theorem iterate_bind {f : Drawing → Option Drawing} {g : Drawing → Drawing}
    (h : ∀ d, f d = some (g d)) (n : Nat) (d : Drawing) :
    iterate (·.bind f) n (some d) = some (iterate g n d) := by
  induction n generalizing d with
  | zero => rfl
  | succ n ih =>
    calc iterate (·.bind f) (n + 1) (some d)
        = iterate (·.bind f) n (f d) := rfl
      _ = iterate (·.bind f) n (some (g d)) := by rw [h d]
      _ = some (iterate g (n + 1) d) := ih (g d)

/-- A number that is bound is not zero for want of one. -/
theorem number?_eq {param : Param} {args : List Arg} (h : ∀ arg ∈ args, arg.WellTyped)
    (hbound : param ∈ args.map Arg.param) (hkind : param.kind ≠ .block) :
    number? param args = some (numberArg param args) := by
  obtain ⟨a, ha, rfl⟩ := List.mem_map.mp hbound
  have hsome : (args.find? (·.param = a.param)).isSome = true := by
    rw [List.find?_isSome]
    exact ⟨a, ha, by simp⟩
  obtain ⟨b, hb⟩ := Option.isSome_iff_exists.mp hsome
  have hparam : b.param = a.param := by simpa using List.find?_some hb
  unfold number? numberArg
  rw [hb]
  cases h b (List.mem_of_find?_eq_some hb) with
  | number => rfl
  | block hk =>
    rw [← hparam] at hkind
    exact absurd hk hkind

theorem performAll?_append (xs ys : List Instruction) (d : Drawing) :
    performAll? (xs ++ ys) d = (performAll? xs d).bind (performAll? ys) := by
  induction xs generalizing d with
  | nil => rfl
  | cons i xs ih =>
    rw [List.cons_append, performAll?, performAll?]
    cases i.perform? d with
    | none => rfl
    | some e => exact ih e

mutual
/-- A finished call finds all that it asks for. -/
theorem perform?_eq : (i : Instruction) → i.IsFinished → (d : Drawing) →
    i.perform? d = some (i.perform d)
  | ⟨id, command, args, complete⟩, h, d => by
    have hargs : ∀ arg ∈ args, arg.WellTyped := h.1.args
    have hbound : ∀ param ∈ command.params, param ∈ args.map Arg.param :=
      h.1.isComplete_iff.mp h.2
    have hnumber : ∀ param ∈ command.params, param.kind ≠ .block →
        number? param args = some (numberArg param args) :=
      fun param hp hk => number?_eq hargs (hbound param hp) hk
    unfold Instruction.perform? Instruction.perform
    cases command with
    | forward | back => simp [hnumber .distance (by simp [Command.params]) (by simp [Param.kind])]
    | left | right => simp [hnumber .angle (by simp [Command.params]) (by simp [Param.kind])]
    | penUp | penDown => rfl
    | loop =>
      have htimes := hnumber .times (by simp [Command.params]) (by simp [Param.kind])
      obtain ⟨f, hf, hperform⟩ :=
        performBlock?_eq args hargs (hbound .statements (by simp [Command.params]))
      simp only [htimes, hf, Option.bind_some]
      exact iterate_bind hperform _ d

theorem performBlock?_eq : (args : List Arg) → (∀ arg ∈ args, arg.WellTyped) →
    .statements ∈ args.map Arg.param →
    ∃ f, performBlock? args = some f ∧ ∀ d, f d = some (performBlock args d)
  | [], _, hbound => by simp at hbound
  | .number param x :: args, h, hbound => by
    unfold performBlock? performBlock
    have hne : param ≠ .statements := by
      rintro rfl
      cases h _ List.mem_cons_self with
      | number hx => exact hx.1 rfl
    have hrest : .statements ∈ args.map Arg.param := by
      simpa [Arg.param, Ne.symm hne] using hbound
    simp only [hne, if_false]
    exact performBlock?_eq args (fun a ha => h a (List.mem_cons_of_mem _ ha)) hrest
  | .block param body :: args, h, hbound => by
    unfold performBlock? performBlock
    by_cases hparam : param = .statements
    · have hbody : ∀ i ∈ body, i.IsFinished := by
        cases h _ List.mem_cons_self with
        | block _ htyped hcomplete => exact fun i hi => ⟨htyped i hi, hcomplete i hi⟩
      simp only [hparam, if_true]
      exact ⟨_, rfl, performAll?_eq body hbody⟩
    · have hrest : .statements ∈ args.map Arg.param := by
        simpa [Arg.param, Ne.symm hparam] using hbound
      simp only [hparam, if_false]
      exact performBlock?_eq args (fun a ha => h a (List.mem_cons_of_mem _ ha)) hrest

theorem performAll?_eq : (body : List Instruction) → (∀ i ∈ body, i.IsFinished) → (d : Drawing) →
    performAll? body d = some (performAll body d)
  | [], _, d => rfl
  | i :: body, h, d => by
    unfold performAll? performAll
    rw [perform?_eq i (h i List.mem_cons_self), Option.bind_some]
    exact performAll?_eq body (fun j hj => h j (List.mem_cons_of_mem _ hj)) _
end

/-! ## What the parser performs -/

namespace Script

/-- The drawing is what the statements make of it one after another, and nothing that they ask for
is missing. -/
def IsDrawn (s : Script) : Prop := performAll? s.instructions.toList .empty = some s.drawing

theorem IsDrawn.settle {s : Script} (h : s.IsDrawn) {i : Instruction} (hi : i.WellTyped) :
    (s.settle i).IsDrawn := by
  unfold Script.settle
  split
  · exact h
  · next hcomplete =>
    split
    · exact h
    · have hfinished : i.IsFinished := ⟨hi, by simpa using hcomplete⟩
      unfold IsDrawn at h ⊢
      rw [Array.toList_push, performAll?_append, h]
      exact performAll?_eq [i] (by simpa using hfinished) s.drawing

theorem IsDrawn.accept {s : Script} (h : s.IsDrawn) (htyped : s.WellTyped) (t : Token) :
    (s.accept t).IsDrawn := by
  unfold Script.accept
  cases hstep : s.step t with
  | error fault => exact h
  | ok p =>
    obtain ⟨next, owner⟩ := p
    obtain ⟨before, -, hstatements, hdrawing, hnext⟩ := htyped.settles (stepped_of_step hstep)
    have hbefore : before.IsDrawn := by
      unfold IsDrawn
      rw [hstatements, hdrawing]
      exact h
    have hdrawn : next.IsDrawn := by
      rcases hnext with rfl | ⟨i, hi, rfl⟩
      · exact hbefore
      · exact hbefore.settle hi
    exact hdrawn

theorem IsDrawn.replay {s : Script} (h : s.IsDrawn) (htyped : s.WellTyped) (tokens : List Token) :
    (s.replay tokens).IsDrawn := by
  induction tokens generalizing s with
  | nil => exact h
  | cons t tokens ih => exact ih (h.accept htyped t) (htyped.accept t)

/-- Whatever tokens are taken, and whether they are accepted or not, all calls of the script are
well typed. The drawing is what its statements make of it in order, each of them with all the
numbers and blocks that it asks for: none counts as zero or as empty because it is missing. -/
theorem parsed_calls_are_well_typed (tokens : List Token) :
    (empty.replay tokens).WellTyped ∧
      performAll? (empty.replay tokens).instructions.toList .empty =
        some (empty.replay tokens).drawing := by
  have hdrawn : empty.IsDrawn := rfl
  exact ⟨wellTyped_empty.replay tokens, hdrawn.replay wellTyped_empty tokens⟩

end Script

end TurtleScript
