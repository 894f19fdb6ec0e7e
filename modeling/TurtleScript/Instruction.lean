-- Instructions: a command together with what its parameters have been given
-- so far. A block holds complete instructions, so instructions are trees.
import TurtleScript.Command

namespace TurtleScript

mutual
/-- A call of a command. The parameters are bound in order; the call is complete once all
are. -/
structure Instruction where
  id : Nat
  command : Command
  args : List Arg
  isComplete : Bool

/-- What a parameter has been given. -/
inductive Arg where
  | number (param : Param) (value : Float)
  | block (param : Param) (body : List Instruction)
end

instance : Inhabited Instruction := ⟨⟨0, .penUp, [], true⟩⟩

/-! ## Arguments -/

/-- The parameter that is bound. -/
def Arg.param : Arg → Param
  | .number param _ => param
  | .block param _ => param

/-- Binds a parameter. One that was bound before keeps its place. -/
def bindArg (arg : Arg) : List Arg → List Arg
  | [] => [arg]
  | a :: args => if a.param = arg.param then arg :: args else a :: bindArg arg args

/-- The number bound to a parameter; zero if there is none. -/
def numberArg (param : Param) (args : List Arg) : Float :=
  match args.find? (·.param = param) with
  | some (.number _ value) => value
  | _ => 0.0

namespace Instruction

def new (id : Nat) (command : Command) : Instruction :=
  ⟨id, command, [], command.params.isEmpty⟩

/-- The first parameter that has been given nothing yet. -/
def nextParam? (i : Instruction) : Option Param := i.command.params[i.args.length]?

def bind (i : Instruction) (arg : Arg) : Instruction :=
  let bound := { i with args := bindArg arg i.args }
  { bound with isComplete := bound.nextParam?.isNone }

end Instruction

/-! ## Equality by value -/

mutual
/-- Instructions with equal values: numbers are compared as doubles, so one that is no
number equals nothing, and the order of the arguments does not count. -/
def Instruction.same : Instruction → Instruction → Bool
  | ⟨id, command, args, isComplete⟩, j =>
    id == j.id && decide (command = j.command) && args.length == j.args.length &&
      argsSame args j.args && isComplete == j.isComplete

/-- Every argument stands with an equal value among the others. -/
def argsSame : List Arg → List Arg → Bool
  | [], _ => true
  | .number param x :: args, others =>
    (match others.find? (·.param = param) with
      | some (.number _ y) => x == y
      | _ => false) && argsSame args others
  | .block param body :: args, others =>
    (match others.find? (·.param = param) with
      | some (.block _ other) => bodySame body other
      | _ => false) && argsSame args others

/-- Blocks with equal instructions, one by one. -/
def bodySame : List Instruction → List Instruction → Bool
  | [], [] => true
  | i :: body, j :: other => i.same j && bodySame body other
  | _, _ => false
end

end TurtleScript
