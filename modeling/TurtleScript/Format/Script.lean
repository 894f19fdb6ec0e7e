-- Whole scripts as JSON, and the part of them that is saved to a file.
import TurtleScript.Format.Drawing
import TurtleScript.Format.Instruction
import TurtleScript.Format.Token
import TurtleScript.Json.Reader
import TurtleScript.Json.Writer
import TurtleScript.Snapshot

namespace TurtleScript

/-- A value that may be absent as JSON. -/
def Json.ofOption {α : Type} (write : α → Json) : Option α → Json
  | none => .null
  | some a => write a

/-! ## Scripts -/

def OpenBlock.toJson (b : OpenBlock) : Json :=
  .obj [("instruction", b.instruction.toJson), ("parameter", .str b.param.name),
    ("statements", .arr (b.statements.toList.map Instruction.toJson))]

def OpenBlock.ofJson? (j : Json) : Option OpenBlock := do
  let r ← Json.record? ["instruction", "parameter", "statements"] j
  let instruction ← r.field? "instruction" Instruction.ofJson?
  let param ← r.field? "parameter" fun j => j.name?.bind Param.named?
  let statements ← r.field? "statements" (Json.listOf? Instruction.ofJson?)
  return ⟨instruction, param, statements.toArray⟩

def errorJson (description : String) : Json := .obj [("description", .str description)]

def readError? (j : Json) : Option String := do
  let r ← Json.record? ["description"] j
  r.field? "description" Json.text?

def Script.fields (s : Script) : List (String × Json) :=
  [("currentInstruction", .ofOption Instruction.toJson s.current),
    ("openBlocks", .arr (s.openBlocks.reverse.map OpenBlock.toJson)),
    ("parsedInstructions", .arr (s.instructions.toList.map Instruction.toJson)),
    ("parsedTokens", .arr (s.tokens.toList.map TaggedToken.toJson)),
    ("nextInstructionId", .int s.nextId),
    ("drawCommands", s.drawing.logJson),
    ("turtle", s.drawing.turtle.toJson),
    ("error", .ofOption errorJson s.error),
    ("name", .str s.name)]

def Script.toJson (s : Script) : Json := .obj s.fields

def Script.fieldNames : List String :=
  ["currentInstruction", "openBlocks", "parsedInstructions", "parsedTokens", "nextInstructionId",
    "drawCommands", "turtle", "error", "name"]

def Script.ofJson? (j : Json) : Option Script := do
  let r ← Json.record? Script.fieldNames j
  let current ← r.optional? "currentInstruction" Instruction.ofJson?
  let openBlocks ← r.field? "openBlocks" (Json.listOf? OpenBlock.ofJson?)
  let instructions ← r.field? "parsedInstructions" (Json.listOf? Instruction.ofJson?)
  let tokens ← r.field? "parsedTokens" (Json.listOf? TaggedToken.ofJson?)
  let nextId ← r.field? "nextInstructionId" Json.nat?
  let log ← r.field? "drawCommands" (Json.listOf? DrawCommand.ofJson?)
  let turtle ← r.field? "turtle" Turtle.ofJson?
  let error ← r.optional? "error" readError?
  let name ← r.field? "name" Json.text?
  return { current, openBlocks := openBlocks.reverse, instructions := instructions.toArray,
           tokens := tokens.toArray, nextId, drawing := ⟨turtle, log.toArray⟩, error, name }

/-! ## Snapshots -/

def Snapshot.toJson (s : Snapshot) : Json :=
  .obj [("name", .str s.name), ("parsedTokens", .arr (s.tokens.map TaggedToken.toJson))]

def Snapshot.ofJson? (j : Json) : Option Snapshot := do
  let r ← Json.record? ["name", "parsedTokens"] j
  let name ← r.field? "name" Json.text?
  let tokens ← r.field? "parsedTokens" (Json.listOf? TaggedToken.ofJson?)
  return ⟨name, tokens⟩

/-- The text of a saved script. -/
def Script.saved (s : Script) : String := s.snapshot.toJson.pretty

/-- The script of a saved text. -/
def Script.load? (text : String) : Option Script :=
  ((Json.parse? text).bind Snapshot.ofJson?).map Snapshot.restore

end TurtleScript
