-- Instructions with other ids. What an instruction does, what it still waits
-- for and what it makes of a token have nothing to do with the ids in it.
import TurtleScript.Call
import TurtleScript.Drawing

namespace TurtleScript

/-! ## Other ids -/

mutual
/-- The instruction with other ids, in its blocks too. -/
def Instruction.renumbered (f : Nat → Nat) : Instruction → Instruction
  | ⟨id, command, args, isComplete⟩ => ⟨f id, command, renumberedArgs f args, isComplete⟩

def renumberedArgs (f : Nat → Nat) : List Arg → List Arg
  | [] => []
  | .number param x :: args => .number param x :: renumberedArgs f args
  | .block param body :: args => .block param (renumberedBody f body) :: renumberedArgs f args

def renumberedBody (f : Nat → Nat) : List Instruction → List Instruction
  | [] => []
  | i :: body => i.renumbered f :: renumberedBody f body
end

def Arg.renumbered (f : Nat → Nat) : Arg → Arg
  | .number param x => .number param x
  | .block param body => .block param (body.map (·.renumbered f))

theorem renumberedBody_eq_map (f : Nat → Nat) (body : List Instruction) :
    renumberedBody f body = body.map (·.renumbered f) := by
  induction body with
  | nil => rfl
  | cons i body ih => rw [renumberedBody, ih, List.map_cons]

theorem renumberedArgs_eq_map (f : Nat → Nat) (args : List Arg) :
    renumberedArgs f args = args.map (·.renumbered f) := by
  induction args with
  | nil => rfl
  | cons a args ih =>
    cases a with
    | number param x => rw [renumberedArgs, ih, List.map_cons, Arg.renumbered]
    | block param body =>
      rw [renumberedArgs, ih, List.map_cons, Arg.renumbered, renumberedBody_eq_map]

section Fields

variable (f : Nat → Nat) (i : Instruction)

@[simp] theorem Instruction.id_renumbered : (i.renumbered f).id = f i.id := by
  cases i
  rfl

@[simp] theorem Instruction.command_renumbered : (i.renumbered f).command = i.command := by
  cases i
  rfl

@[simp] theorem Instruction.isComplete_renumbered :
    (i.renumbered f).isComplete = i.isComplete := by
  cases i
  rfl

@[simp] theorem Instruction.args_renumbered :
    (i.renumbered f).args = i.args.map (·.renumbered f) := by
  cases i
  exact renumberedArgs_eq_map f _

@[simp] theorem Arg.param_renumbered (arg : Arg) : (arg.renumbered f).param = arg.param := by
  cases arg <;> rfl

end Fields

/-! ## Performing -/

theorem numberArg_renumbered (f : Nat → Nat) (param : Param) (args : List Arg) :
    numberArg param (args.map (·.renumbered f)) = numberArg param args := by
  unfold numberArg
  rw [List.find?_map]
  simp only [Function.comp_def, Arg.param_renumbered]
  cases args.find? (·.param = param) with
  | none => rfl
  | some a => cases a <;> rfl

mutual
/-- What an instruction does has nothing to do with its ids. -/
theorem Instruction.perform_renumbered (f : Nat → Nat) : (i : Instruction) → (d : Drawing) →
    (i.renumbered f).perform d = i.perform d
  | ⟨id, command, args, complete⟩, d => by
    have hnumber : ∀ param, numberArg param (renumberedArgs f args) = numberArg param args := by
      intro param
      rw [renumberedArgs_eq_map, numberArg_renumbered]
    have hblock : performBlock (renumberedArgs f args) = performBlock args :=
      funext (performBlock_renumbered f args)
    unfold Instruction.renumbered Instruction.perform
    cases command <;> simp only [hnumber, hblock]

theorem performBlock_renumbered (f : Nat → Nat) : (args : List Arg) → (d : Drawing) →
    performBlock (renumberedArgs f args) d = performBlock args d
  | [], d => rfl
  | .number param x :: args, d => by
    rw [renumberedArgs, performBlock, performBlock, performBlock_renumbered f args]
  | .block param body :: args, d => by
    rw [renumberedArgs, performBlock, performBlock, performBlock_renumbered f args,
      performAll_renumbered f body]

theorem performAll_renumbered (f : Nat → Nat) : (body : List Instruction) → (d : Drawing) →
    performAll (renumberedBody f body) d = performAll body d
  | [], d => rfl
  | i :: body, d => by
    rw [renumberedBody, performAll, performAll, Instruction.perform_renumbered f i,
      performAll_renumbered f body]
end

theorem performAll_map_renumbered (f : Nat → Nat) (body : List Instruction) (d : Drawing) :
    performAll (body.map (·.renumbered f)) d = performAll body d := by
  rw [← renumberedBody_eq_map, performAll_renumbered]

/-! ## Feeding -/

/-- What a token does to a call that has other ids. -/
def CallStep.renumbered (f : Nat → Nat) : CallStep → CallStep
  | .ignored => .ignored
  | .bound call => .bound (call.renumbered f)
  | .opens param => .opens param

theorem Instruction.nextParam?_renumbered (f : Nat → Nat) (i : Instruction) :
    (i.renumbered f).nextParam? = i.nextParam? := by
  simp [nextParam?]

theorem bindArg_renumbered (f : Nat → Nat) (arg : Arg) (args : List Arg) :
    bindArg (arg.renumbered f) (args.map (·.renumbered f)) =
      (bindArg arg args).map (·.renumbered f) := by
  induction args with
  | nil => rfl
  | cons a args ih =>
    rw [List.map_cons, bindArg, bindArg, Arg.param_renumbered, Arg.param_renumbered, ih]
    split <;> rfl

theorem Instruction.bind_renumbered (f : Nat → Nat) (i : Instruction) (arg : Arg) :
    (i.renumbered f).bind (arg.renumbered f) = (i.bind arg).renumbered f := by
  obtain ⟨id, command, args, complete⟩ := i
  simp only [bind, renumbered, nextParam?, renumberedArgs_eq_map, bindArg_renumbered,
    List.length_map]

/-- A call makes the same of a token whatever its ids are. -/
theorem Instruction.feed_renumbered (f : Nat → Nat) (i : Instruction) (t : Token) :
    (i.renumbered f).feed t = (i.feed t).map (·.renumbered f) := by
  unfold feed
  rw [nextParam?_renumbered, command_renumbered]
  cases i.nextParam? with
  | none => rfl
  | some param =>
    simp only
    have hbind : ∀ x, (i.renumbered f).bind (.number param x) =
        (i.bind (.number param x)).renumbered f := fun x => bind_renumbered f i (.number param x)
    simp only [hbind]
    cases param.kind <;> cases t.kind <;> cases numberFor i.command param t <;> rfl

end TurtleScript
