-- The parser: one token at a time it starts instructions, gives them their
-- arguments and closes blocks. A complete statement is performed at once. A
-- submission counts only if every token of it is accepted.
import TurtleScript.Call
import TurtleScript.Lexer
import TurtleScript.Script

namespace TurtleScript.Script

/-! ## One token -/

/-- An instruction waits for its arguments as long as it is incomplete. A complete one goes
into the innermost open block; outside all blocks it is a statement and is performed. -/
def settle (s : Script) (i : Instruction) : Script :=
  if i.isComplete = false then { s with current := some i }
  else match s.openBlocks with
    | block :: blocks =>
      { s with openBlocks := { block with statements := block.statements.push i } :: blocks }
    | [] => { s with drawing := i.perform s.drawing, instructions := s.instructions.push i }

/-- Ends the innermost open block and gives it to its instruction. -/
def closeBlock (s : Script) : Script :=
  match s.openBlocks with
  | [] => s
  | block :: blocks =>
    { s with openBlocks := blocks }.settle
      (block.instruction.bind (.block block.param block.statements.toList))

/-- A token where no instruction is waiting for arguments. The id is that of the
instruction that it starts. -/
def stepOutside (s : Script) (t : Token) : Except Fault (Script × Option Nat) :=
  match t.kind with
  | .whitespace => .ok (s, none)
  | .bracketClose =>
    if s.openBlocks.isEmpty then .error (.unexpectedBracket t) else .ok (s.closeBlock, none)
  | .bracketOpen => .error (.unexpectedBracket t)
  | .word | .number =>
    match Command.lookup? t.text with
    | none => .error (.unknownCommand t.text)
    | some command =>
      .ok ({ s with nextId := s.nextId + 1 }.settle (.new s.nextId command), some s.nextId)

/-- A token for the instruction that is waiting for arguments. -/
def stepInside (s : Script) (i : Instruction) (t : Token) : Except Fault Script :=
  let s := { s with current := none }
  match i.feed t with
  | .error fault => .error fault
  | .ok .ignored => .ok (s.settle i)
  | .ok (.bound bound) => .ok (s.settle bound)
  | .ok (.opens param) => .ok { s with openBlocks := ⟨i, param, #[]⟩ :: s.openBlocks }

/-- One token, and the id of the statement it belongs to. -/
def step (s : Script) (t : Token) : Except Fault (Script × Option Nat) :=
  match s.current with
  | some i => (s.stepInside i t).map fun next => (next, s.owner?.or (some i.id))
  | none => (s.stepOutside t).map fun (next, started) => (next, s.owner?.or started)

/-- Takes a token. A refused one is recorded too, but it discards the unfinished statement
and leaves an error. -/
def accept (s : Script) (t : Token) : Script :=
  match s.step t with
  | .ok (next, owner) => { next with tokens := next.tokens.push ⟨t, owner⟩ }
  | .error fault =>
    { s with current := none, openBlocks := [], error := some fault.message,
             tokens := s.tokens.push ⟨t, s.owner?⟩ }

/-! ## Submissions -/

/-- Takes tokens up to the first refused one; then only its error counts. -/
def acceptAll (before : Script) : Script → List Token → Script
  | s, [] => s
  | s, t :: tokens =>
    let next := s.accept t
    if next.error.isSome then { before with error := next.error } else acceptAll before next tokens

/-- Submits a text. If any token of it is refused, nothing but the error changes. -/
def submit (s : Script) (text : String) : Script :=
  acceptAll s { s with error := none } (lex text s.nextLine).tokens

/-- Takes tokens without looking back, as when a script is rebuilt from its tokens. -/
def replay (s : Script) (tokens : List Token) : Script := tokens.foldl accept s

end TurtleScript.Script
