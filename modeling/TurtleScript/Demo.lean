-- The demo scripts that come with the program, in two groups.
import TurtleScript.Text.Split

namespace TurtleScript

/-! ## Groups -/

/-- Single shapes, or nested blocks and pen control. -/
inductive DemoGroup where
  | shapes
  | patterns
  deriving DecidableEq, Repr

/-- The groups in the order they are listed. -/
def DemoGroup.all : List DemoGroup := [shapes, patterns]

def DemoGroup.title : DemoGroup → String
  | shapes => "Shapes"
  | patterns => "Patterns"

/-! ## Demos -/

/-- A script with a short name and a line about it. -/
structure Demo where
  name : String
  summary : String
  group : DemoGroup
  code : String
  deriving DecidableEq, Repr

namespace Demo

def square : Demo where
  name := "square"
  summary := "A square drawn with a single repeat"
  group := .shapes
  code := "repeat 4 [\n  forward 100\n  right 90\n]\n"

def star : Demo where
  name := "star"
  summary := "A five-pointed star"
  group := .shapes
  code := "repeat 5 [\n  forward 120\n  right 144\n]\n"

def spiral : Demo where
  name := "spiral"
  summary := "A growing square spiral"
  group := .shapes
  code := "repeat 3 [\n  forward 10 right 90\n  forward 20 right 90\n  forward 30 right 90\n" ++
    "  forward 40 right 90\n]\n"

/-- Twelve rotated squares. -/
def flower : Demo where
  name := "flower"
  summary := "Twelve rotated squares"
  group := .patterns
  code := "repeat 12 [\n  repeat 4 [\n    forward 50\n    right 90\n  ]\n  right 30\n]\n"

def dashes : Demo where
  name := "dashes"
  summary := "A dashed line using penup and pendown"
  group := .patterns
  code := "repeat 10 [\n  pendown\n  forward 10\n  penup\n  forward 5\n]\npendown\n"

/-- Stairs with short command names. -/
def stairs : Demo where
  name := "stairs"
  summary := "Stairs written with short command names"
  group := .patterns
  code := "rt 90\nrp 5 [\n  fd 20\n  lt 90\n  fd 20\n  rt 90\n]\n"

/-- All demos in the order they are listed. -/
def all : List Demo := [square, star, spiral, flower, dashes, stairs]

def find? (name : String) : Option Demo := all.find? (·.name = name)

/-- The lines a user would submit one by one. -/
def lines (d : Demo) : List String := linesOf d.code

/-- What is said about a name that no demo has. -/
def unknownMessage (name : String) : String := "unknown demo `" ++ name ++ "`"

end Demo

def DemoGroup.demos (g : DemoGroup) : List Demo := Demo.all.filter (·.group = g)

/-! ## The list -/

/-- A text filled up with blanks to a width. -/
def padRight (width : Nat) (s : String) : String :=
  s ++ String.ofList (List.replicate (width - s.length) ' ')

/-- A line of the list about a demo. -/
def Demo.entry (d : Demo) : String := "  " ++ padRight 8 d.name ++ " - " ++ d.summary ++ "\n"

/-- The list of all demos by group. -/
def Demo.list : String :=
  joined (DemoGroup.all.map fun g => g.title ++ ":\n" ++ joined (g.demos.map Demo.entry))

end TurtleScript
