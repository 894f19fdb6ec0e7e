-- The built-in commands: their names, their parameters in order, and what
-- they do in a few words.

namespace TurtleScript

/-! ## Parameters -/

/-- The parameters that commands have. -/
inductive Param where
  | distance
  | angle
  | times
  | statements
  deriving DecidableEq, Repr

/-- What a parameter can be given. -/
inductive ParamKind where
  | number
  | integer
  | block
  deriving DecidableEq, Repr

namespace Param

/-- The parameters by name. -/
def name : Param → String
  | distance => "distance"
  | angle => "angle"
  | times => "times"
  | statements => "statements"

/-- All parameters. -/
def all : List Param := [distance, angle, times, statements]

/-- The parameter of a name. -/
def named? (s : String) : Option Param := all.find? (·.name = s)

/-- What the parameter can be given. -/
def kind : Param → ParamKind
  | distance | angle => .number
  | times => .integer
  | statements => .block

/-- What the parameter can be given, as messages say it. -/
def expectation (p : Param) : String :=
  match p.kind with
  | .number => "a number"
  | .integer => "a whole number"
  | .block => "a block in `[` `]`"

end Param

/-! ## Commands -/

/-- The built-in commands. -/
inductive Command where
  | forward
  | back
  | left
  | right
  | loop
  | penUp
  | penDown
  deriving DecidableEq, Repr

namespace Command

/-- All commands, in the order they are listed. -/
def all : List Command := [forward, back, left, right, loop, penUp, penDown]

/-- The name a command is shown by. -/
def name : Command → String
  | forward => "forward"
  | back => "back"
  | left => "left"
  | right => "right"
  | loop => "repeat"
  | penUp => "penup"
  | penDown => "pendown"

/-- The short name of a command. -/
def shortName : Command → String
  | forward => "fd"
  | back => "bk"
  | left => "lt"
  | right => "rt"
  | loop => "rp"
  | penUp => "pu"
  | penDown => "pd"

/-- All names a command can be called by. -/
def names (c : Command) : List String := [c.name, c.shortName]

/-- The parameters of a command, in the order they are given. -/
def params : Command → List Param
  | forward | back => [.distance]
  | left | right => [.angle]
  | loop => [.times, .statements]
  | penUp | penDown => []

def summary : Command → String
  | forward => "move forward, drawing a line while the pen is down"
  | back => "move backward, drawing a line while the pen is down"
  | left => "turn counter-clockwise"
  | right => "turn clockwise"
  | loop => "run a bracketed block of statements several times"
  | penUp => "stop drawing while moving"
  | penDown => "resume drawing while moving"

/-- A command that advances the history when it is complete although it draws nothing
itself. -/
def isWriteProtected (c : Command) : Bool := c = loop

/-- The command that can be called by a name. Case matters. -/
def lookup? (s : String) : Option Command := all.find? (·.names.contains s)

def named? (s : String) : Option Command := all.find? (·.name = s)

end Command

end TurtleScript
