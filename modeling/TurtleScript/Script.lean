-- A script as far as it has been read: its statements, the statement that is
-- still unfinished, its tokens and the drawing it has made.
import TurtleScript.Drawing
import TurtleScript.Token

namespace TurtleScript

/-- An instruction whose block is being read. -/
structure OpenBlock where
  instruction : Instruction
  param : Param
  statements : Array Instruction

/-- Everything known about a script. The open blocks come innermost first. -/
structure Script where
  current : Option Instruction
  openBlocks : List OpenBlock
  instructions : Array Instruction
  tokens : Array TaggedToken
  -- A program counts in 64 bits here. No run is long enough to use them up.
  nextId : Nat
  drawing : Drawing
  error : Option String
  name : String

namespace Script

/-- The name of a script that nobody has named. -/
def defaultName : String := "Unnamed script"

/-- The script before anything was submitted. -/
def empty : Script := ⟨none, [], #[], #[], 0, .empty, none, defaultName⟩

instance : Inhabited Script := ⟨empty⟩

/-- The line that the next character stands on. -/
def nextLine (s : Script) : Nat := (s.tokens.back?.map (·.endLine)).getD 1

/-- A statement is waiting for more. -/
def isIncomplete (s : Script) : Bool := s.current.isSome || !s.openBlocks.isEmpty

/-- The id of the outermost unfinished instruction. -/
def owner? (s : Script) : Option Nat :=
  match s.openBlocks.getLast? with
  | some block => some block.instruction.id
  | none => s.current.map (·.id)

/-! ## Equality by value -/

/-- Both absent, or both there and the same. -/
def sameOption {α : Type} (same : α → α → Bool) : Option α → Option α → Bool
  | none, none => true
  | some a, some b => same a b
  | _, _ => false

/-- As many on both sides, and the same one by one. -/
def sameList {α : Type} (same : α → α → Bool) (as bs : List α) : Bool :=
  as.length == bs.length && (as.zip bs).all fun (a, b) => same a b

/-- Open blocks with equal values. -/
def sameBlock (a b : OpenBlock) : Bool :=
  a.instruction.same b.instruction && decide (a.param = b.param) &&
    sameList Instruction.same a.statements.toList b.statements.toList

/-- Scripts with equal values in every field. -/
def same (a b : Script) : Bool :=
  sameOption Instruction.same a.current b.current &&
    sameList sameBlock a.openBlocks b.openBlocks &&
    sameList Instruction.same a.instructions.toList b.instructions.toList &&
    decide (a.tokens.toList = b.tokens.toList) && a.nextId == b.nextId &&
    a.drawing.same b.drawing && decide (a.error = b.error) && decide (a.name = b.name)

end Script

end TurtleScript
