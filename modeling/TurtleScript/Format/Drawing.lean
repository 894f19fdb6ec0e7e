-- Turtles and drawings as JSON.
import TurtleScript.Drawing
import TurtleScript.Json.Record

namespace TurtleScript

/-! ## The turtle -/

def Turtle.toJson (t : Turtle) : Json :=
  .obj [("x", .float t.x), ("y", .float t.y), ("angle", .float t.angle), ("penDown", .bool t.penDown)]

def Turtle.ofJson? (j : Json) : Option Turtle := do
  let r ← Json.record? ["x", "y", "angle", "penDown"] j
  let x ← r.field? "x" Json.float?
  let y ← r.field? "y" Json.float?
  let angle ← r.field? "angle" Json.float?
  let penDown ← r.field? "penDown" Json.bool?
  return ⟨x, y, angle, penDown⟩

/-! ## The log -/

def DrawCommand.toJson : DrawCommand → Json
  | line id x1 y1 x2 y2 =>
    .obj [("drawCommand", .str "drawLine"), ("id", .int id), ("x1", .float x1), ("y1", .float y1),
      ("x2", .float x2), ("y2", .float y2)]
  | rotate id previousAngle newAngle =>
    .obj [("drawCommand", .str "rotate"), ("id", .int id), ("previousAngle", .float previousAngle),
      ("newAngle", .float newAngle)]

def DrawCommand.ofJson? (j : Json) : Option DrawCommand := do
  let (tag, rest) ← Json.tagged? "drawCommand" ["drawLine", "rotate"] false (← j.whole?)
  if tag = "drawLine" then
    let r ← Json.record? ["id", "x1", "y1", "x2", "y2"] rest
    let id ← r.field? "id" Json.nat?
    let x1 ← r.field? "x1" Json.float?
    let y1 ← r.field? "y1" Json.float?
    let x2 ← r.field? "x2" Json.float?
    let y2 ← r.field? "y2" Json.float?
    return .line id x1 y1 x2 y2
  else
    let r ← Json.record? ["id", "previousAngle", "newAngle"] rest
    let id ← r.field? "id" Json.nat?
    let previousAngle ← r.field? "previousAngle" Json.float?
    let newAngle ← r.field? "newAngle" Json.float?
    return .rotate id previousAngle newAngle

def Drawing.logJson (d : Drawing) : Json := .arr (d.log.toList.map DrawCommand.toJson)

end TurtleScript
