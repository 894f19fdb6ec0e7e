-- Giving a call its arguments, one token at a time. White space is skipped;
-- any other token has to fit the first parameter that is still open.
import TurtleScript.Decimal.Binary
import TurtleScript.Decimal.Literal
import TurtleScript.Instruction
import TurtleScript.Token

namespace TurtleScript

/-! ## Faults -/

/-- Why a token is refused. -/
inductive Fault where
  | unknownCommand (name : String)
  | unexpectedBracket (found : Token)
  | unexpectedToken (command : Command) (param : Param) (found : Token)
  | notAnInteger (command : Command) (param : Param) (found : String)
  | tooLarge (command : Command) (param : Param) (found : String)
  deriving DecidableEq, Repr

/-- The largest number of times that can be asked for. -/
def maxTimes : Nat := 10000

def Fault.message : Fault → String
  | unknownCommand name => name ++ " is not a recognized command"
  | unexpectedBracket found => "unexpected " ++ found.describe
  | unexpectedToken command param found =>
    command.name ++ " expects " ++ param.expectation ++ " as " ++ param.name ++ ", got " ++
      found.describe
  | notAnInteger command param found =>
    command.name ++ " expects a whole number as " ++ param.name ++ ", got `" ++ found ++ "`"
  | tooLarge command param found =>
    command.name ++ " accepts at most " ++ Decimal.text maxTimes ++ " as " ++ param.name ++
      ", got `" ++ found ++ "`"

/-! ## One token -/

/-- What a token does to a call: nothing, it binds a parameter, or it opens the block of
one. -/
inductive CallStep where
  | ignored
  | bound (call : Instruction)
  | opens (param : Param)

/-- The number that a token gives a parameter. -/
def numberFor (command : Command) (param : Param) (t : Token) : Except Fault Float :=
  match Decimal.number? t.text with
  | none => .error (.unexpectedToken command param t)
  | some x =>
    if param.kind = .integer ∧ isWhole x = false then .error (.notAnInteger command param t.text)
    else if param.kind = .integer ∧ Float.ofNat maxTimes < x then
      .error (.tooLarge command param t.text)
    else .ok x

/-- Gives a call one token. -/
def Instruction.feed (i : Instruction) (t : Token) : Except Fault CallStep :=
  match i.nextParam? with
  | none => .ok .ignored
  | some param =>
    match param.kind, t.kind with
    | _, .whitespace => .ok .ignored
    | .block, .bracketOpen => .ok (.opens param)
    | .block, _ | _, .bracketOpen | _, .bracketClose =>
      .error (.unexpectedToken i.command param t)
    | _, _ => (numberFor i.command param t).map fun x => .bound (i.bind (.number param x))

end TurtleScript
