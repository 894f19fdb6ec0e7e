-- Instructions as JSON. The arguments are an object from parameter names to
-- numbers or lists of instructions; of a repeated name the last value counts.
-- An argument is read whole before it is known which of the two it is.
import TurtleScript.Instruction
import TurtleScript.Json.Record

namespace TurtleScript

/-! ## Writing -/

mutual
def Instruction.toJson : Instruction → Json
  | ⟨id, command, args, isComplete⟩ =>
    .obj [("id", .int id), ("command", .str command.name),
      ("collectedParameters", .obj (argFields args)), ("isComplete", .bool isComplete)]

/-- Arguments as fields. -/
def argFields : List Arg → List (String × Json)
  | [] => []
  | .number param value :: args => (param.name, .float value) :: argFields args
  | .block param body :: args => (param.name, .arr (bodyItems body)) :: argFields args

/-- Instructions as items. -/
def bodyItems : List Instruction → List Json
  | [] => []
  | i :: body => i.toJson :: bodyItems body
end

/-! ## Reading -/

def Instruction.fieldNames : List String := ["id", "command", "collectedParameters", "isComplete"]

mutual
/-- An instruction from JSON that is nested less than `fuel` deep. -/
def readInstruction? : Nat → Json → Option Instruction
  | 0, _ => none
  | fuel + 1, j => do
    let r ← Json.record? Instruction.fieldNames j
    let id ← r.field? "id" Json.nat?
    let command ← r.field? "command" fun j => j.name?.bind Command.named?
    let args ← r.field? "collectedParameters" fun j => j.fields?.bind (readArgs? fuel [])
    let isComplete ← r.field? "isComplete" Json.bool?
    return ⟨id, command, args, isComplete⟩

/-- Arguments from fields, after those read so far. -/
def readArgs? (fuel : Nat) (done : List Arg) : List (String × Json) → Option (List Arg)
  | [] => some done
  | (key, value) :: fields => do
    let param ← Param.named? key
    let arg ← readArg? fuel param value
    readArgs? fuel (bindArg arg done) fields

/-- A number or a block from JSON. -/
def readArg? (fuel : Nat) (param : Param) (value : Json) : Option Arg :=
  match value.whole? with
  | some (.arr items) => (items.mapM (readInstruction? fuel)).map (.block param)
  | some value => value.float?.map (.number param)
  | none => none
end

def Instruction.ofJson? (j : Json) : Option Instruction := readInstruction? (j.depth + 1) j

end TurtleScript
