-- The drawing: where the turtle stands, and a log of the lines and turns so
-- far. Performing an instruction only moves the turtle and extends the log.
import TurtleScript.Decimal.Binary
import TurtleScript.Decimal.Digits
import TurtleScript.Decimal.Fixed
import TurtleScript.Instruction

namespace TurtleScript

/-! ## Turtle and log -/

/-- Position, direction and pen. Directions are in degrees: zero points along the x axis,
and turning clockwise adds, because y grows downward. -/
structure Turtle where
  x : Float
  y : Float
  angle : Float
  penDown : Bool

def Turtle.start : Turtle := ⟨0.0, 0.0, 0.0, true⟩

/-- An entry of the log. -/
inductive DrawCommand where
  | line (id : Nat) (x1 y1 x2 y2 : Float)
  | rotate (id : Nat) (previousAngle newAngle : Float)

/-- The place of an entry in the log. -/
def DrawCommand.id : DrawCommand → Nat
  | line id _ _ _ _ => id
  | rotate id _ _ => id

/-- A position as it is shown. -/
def shownPoint (x y : Float) : String := Decimal.fixed 3 x ++ "," ++ Decimal.fixed 3 y

/-- A direction as it is shown. -/
def shownAngle (angle : Float) : String := Decimal.fixed 1 angle

def DrawCommand.describe : DrawCommand → String
  | line id x1 y1 x2 y2 =>
    "#" ++ Decimal.text id ++ " line " ++ shownPoint x1 y1 ++ " -> " ++ shownPoint x2 y2
  | rotate id previousAngle newAngle =>
    "#" ++ Decimal.text id ++ " rotate " ++ shownAngle previousAngle ++ " -> " ++
      shownAngle newAngle

def Turtle.describe (t : Turtle) : String :=
  "turtle is at " ++ shownPoint t.x t.y ++ " and looking in direction " ++ shownAngle t.angle ++
    ", pen " ++ (if t.penDown then "down" else "up")

/-- The turtle and what it has done. -/
structure Drawing where
  turtle : Turtle
  log : Array DrawCommand

/-- The drawing before any instruction. -/
def Drawing.empty : Drawing := ⟨.start, #[]⟩

/-! ## Moves and turns -/

/-- One degree in radians. -/
def radiansPerDegree : Float := 0.017453292519943295

/-- Moves the turtle in its direction. With the pen down this draws a line. -/
def Drawing.move (d : Drawing) (distance : Float) : Drawing :=
  let t := d.turtle
  let direction := t.angle * radiansPerDegree
  let x := t.x + direction.cos * distance
  let y := t.y + direction.sin * distance
  { turtle := { t with x, y }
    log := if t.penDown then d.log.push (.line d.log.size t.x t.y x y) else d.log }

def Drawing.turn (d : Drawing) (by_ : Float) : Drawing :=
  let t := d.turtle
  let angle := t.angle + by_
  { turtle := { t with angle }, log := d.log.push (.rotate d.log.size t.angle angle) }

/-- Lifts or lowers the pen. -/
def Drawing.setPen (d : Drawing) (penDown : Bool) : Drawing :=
  { d with turtle := { d.turtle with penDown } }

/-! ## Performing instructions -/

/-- Does something several times in a row. -/
def iterate {α : Type} (f : α → α) : Nat → α → α
  | 0, a => a
  | n + 1, a => iterate f n (f a)

mutual
/-- Performs an instruction. A number that is missing counts as zero and a block that is
missing as empty. -/
def Instruction.perform : Instruction → Drawing → Drawing
  | ⟨_, command, args, _⟩, d =>
    match command with
    | .forward => d.move (numberArg .distance args)
    | .back => d.move (-numberArg .distance args)
    | .left => d.turn (-numberArg .angle args)
    | .right => d.turn (numberArg .angle args)
    | .loop => iterate (performBlock args) (countOf (numberArg .times args)) d
    | .penUp => d.setPen false
    | .penDown => d.setPen true

/-- Performs the statements among the arguments. -/
def performBlock : List Arg → Drawing → Drawing
  | [], d => d
  | .number param _ :: args, d => if param = .statements then d else performBlock args d
  | .block param body :: args, d =>
    if param = .statements then performAll body d else performBlock args d

def performAll : List Instruction → Drawing → Drawing
  | [], d => d
  | i :: body, d => performAll body (i.perform d)
end

/-! ## Equality by value -/

/-- Turtles with equal values. -/
def Turtle.same (a b : Turtle) : Bool :=
  a.x == b.x && a.y == b.y && a.angle == b.angle && a.penDown == b.penDown

/-- Entries with equal values. -/
def DrawCommand.same : DrawCommand → DrawCommand → Bool
  | line i x1 y1 x2 y2, line j u1 v1 u2 v2 =>
    i == j && x1 == u1 && y1 == v1 && x2 == u2 && y2 == v2
  | rotate i a b, rotate j c d => i == j && a == c && b == d
  | _, _ => false

/-- Drawings with equal values. -/
def Drawing.same (a b : Drawing) : Bool :=
  a.turtle.same b.turtle && a.log.size == b.log.size &&
    (a.log.toList.zip b.log.toList).all fun (x, y) => x.same y

end TurtleScript
