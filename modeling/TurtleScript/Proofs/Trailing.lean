-- The log as a trail of the turtle. The turns of a script lead from one
-- direction to the next, and as long as the pen is never lifted its lines lead
-- from one point to the next, whatever became of refused statements.
import TurtleScript.Proofs.Motion
import TurtleScript.Proofs.Typing

namespace TurtleScript

/-! ## Steps that follow one another -/

/-- Each step begins where the one before it ended, and together they lead from one place to
another. -/
def Leads {α : Type} (a : α) : List (α × α) → α → Prop
  | [], b => a = b
  | (x, y) :: steps, b => x = a ∧ Leads y steps b

theorem Leads.snoc {α : Type} {a b : α} {steps : List (α × α)} (h : Leads a steps b) (c : α) :
    Leads a (steps ++ [(b, c)]) c := by
  induction steps generalizing a with
  | nil => exact ⟨Eq.symm h, rfl⟩
  | cons step steps ih => exact ⟨h.1, ih h.2⟩

/-- The directions before and after, if the entry is a turn. -/
def DrawCommand.turn? : DrawCommand → Option (Float × Float)
  | line _ _ _ _ _ => none
  | rotate _ previousAngle newAngle => some (previousAngle, newAngle)

/-- The points at both ends, if the entry is a line. -/
def DrawCommand.line? : DrawCommand → Option ((Float × Float) × (Float × Float))
  | line _ x1 y1 x2 y2 => some ((x1, y1), (x2, y2))
  | rotate _ _ _ => none

namespace Drawing

def turns (d : Drawing) : List (Float × Float) := d.log.toList.filterMap DrawCommand.turn?

def lines (d : Drawing) : List ((Float × Float) × (Float × Float)) :=
  d.log.toList.filterMap DrawCommand.line?

/-- The entries of the log have their places as ids, and its turns lead from zero to the direction
of the turtle. -/
structure IsTraced (d : Drawing) : Prop where
  ids : d.log.toList.map DrawCommand.id = List.range d.log.size
  turns : Leads 0.0 d.turns d.turtle.angle

/-- The pen is down, and the lines of the log lead from the origin to the turtle. -/
structure IsUnbroken (d : Drawing) : Prop where
  penDown : d.turtle.penDown = true
  lines : Leads (0.0, 0.0) d.lines (d.turtle.x, d.turtle.y)

theorem isTraced_empty : empty.IsTraced := ⟨rfl, rfl⟩

theorem isUnbroken_empty : empty.IsUnbroken := ⟨rfl, rfl⟩

theorem ids_push {log : Array DrawCommand} (h : log.toList.map DrawCommand.id = List.range log.size)
    {c : DrawCommand} (hc : c.id = log.size) :
    (log.push c).toList.map DrawCommand.id = List.range (log.push c).size := by
  rw [Array.toList_push, List.map_append, h, Array.size_push, List.range_succ, List.map_singleton, hc]

theorem IsTraced.follows {d e : Drawing} {m : Motion} (h : d.IsTraced) (hm : d.Follows m e) :
    e.IsTraced := by
  cases hm with
  | drew distance x y =>
    refine ⟨ids_push h.ids rfl, ?_⟩
    simpa [Drawing.turns, DrawCommand.turn?, List.filterMap_cons] using h.turns
  | moved distance x y => exact ⟨h.ids, h.turns⟩
  | turned by_ angle =>
    refine ⟨ids_push h.ids rfl, ?_⟩
    simpa [Drawing.turns, DrawCommand.turn?, List.filterMap_cons] using h.turns.snoc angle
  | set penDown => exact ⟨h.ids, h.turns⟩

theorem IsUnbroken.follows {d e : Drawing} {m : Motion} (h : d.IsUnbroken) (hm : d.Follows m e)
    (hpen : m ≠ .setPen false) : e.IsUnbroken := by
  cases hm with
  | drew distance x y =>
    refine ⟨h.penDown, ?_⟩
    simpa [Drawing.lines, DrawCommand.line?, List.filterMap_cons] using h.lines.snoc (x, y)
  | moved distance x y hup =>
    rw [h.penDown] at hup
    cases hup
  | turned by_ angle =>
    refine ⟨h.penDown, ?_⟩
    simpa [Drawing.lines, DrawCommand.line?, List.filterMap_cons] using h.lines
  | set penDown =>
    have hdown : penDown = true := by simpa using hpen
    exact ⟨hdown, h.lines⟩

end Drawing

/-! ## The drawing of a script -/

namespace Script

/-- Whatever tokens are taken, the drawing is what the motions of the statements make of nothing. -/
theorem drawing_replay (tokens : List Token) :
    (empty.replay tokens).drawing =
      Drawing.empty.followAll (bodyMotions (empty.replay tokens).instructions.toList) := by
  have hempty : empty.IsDrawn := rfl
  have hdrawn : performAll? _ _ = some _ := hempty.replay wellTyped_empty tokens
  rw [performAll?_eq _ (wellTyped_empty.replay tokens).statements] at hdrawn
  rw [← performAll_eq]
  exact (Option.some.inj hdrawn).symm

/-- The log is only added to, and it is a true trail of the turtle. Where an instruction of any shape
leaves the turtle, and what it adds to the log, depend on the turtle before it and on the length of
the log, and nothing else of a script changes as it is performed. Whatever tokens are taken, refused
ones among them, the ids are the places in the log, each turn begins in the direction where the turn
before it ended, and each line begins at the point where the line before it ended unless a statement
lifts the pen. The last turn and the last line end where the turtle is. -/
theorem log_traces_the_turtle :
    (∀ (i : Instruction) (t : Turtle) (n : Nat),
      ∃ (u : Turtle) (added : Array DrawCommand), ∀ log : Array DrawCommand, log.size = n →
        i.perform ⟨t, log⟩ = ⟨u, log ++ added⟩) ∧
    (∀ (s : Script) (i : Instruction), i.isComplete = true → s.openBlocks = [] →
      s.settle i =
        { s with drawing := i.perform s.drawing, instructions := s.instructions.push i }) ∧
    ∀ tokens : List Token,
      let s := empty.replay tokens
      s.drawing.log.toList.map DrawCommand.id = List.range s.drawing.log.size ∧
      Leads 0.0 s.drawing.turns s.drawing.turtle.angle ∧
      ((∀ call ∈ bodyCalls s.instructions.toList, call.command ≠ .penUp) →
        Leads (0.0, 0.0) s.drawing.lines (s.drawing.turtle.x, s.drawing.turtle.y)) := by
  refine ⟨?_, ?_, ?_⟩
  · intro i t n
    obtain ⟨u, added, h⟩ := Motion.extend_log i.motions t n
    exact ⟨u, added, fun log hlog => by rw [i.perform_eq, h log hlog]⟩
  · intro s i hi ho
    unfold settle
    rw [if_neg (by simp [hi]), ho]
  · intro tokens s
    have hdrawing : s.drawing = _ := drawing_replay tokens
    have htraced : s.drawing.IsTraced := by
      rw [hdrawing]
      exact Drawing.followAll_keeps (fun m _ d hd => hd.follows (d.follows m)) Drawing.isTraced_empty
    refine ⟨htraced.ids, htraced.turns, fun hpen => ?_⟩
    have hunbroken : s.drawing.IsUnbroken := by
      rw [hdrawing]
      refine Drawing.followAll_keeps (fun m hm d hd => hd.follows (d.follows m) ?_)
        Drawing.isUnbroken_empty
      rintro rfl
      obtain ⟨call, hcall, hup⟩ := exists_penUp_of_body _ hm
      exact hpen call hcall hup
    exact hunbroken.lines

/-- A text with a loop that would lift the pen, but is given up for an unknown command. -/
def strayText : String := "fd 7 rt 30\nrp 2 [ bk 1.5 lt 5 ] rp 3 [ pu turn\nfd 2"

theorem stray_text_draws_one_trail :
    let s := empty.replay (lex strayText 1).tokens
    s.error.isSome = true ∧ s.drawing.lines.length = 4 ∧ s.drawing.turns.length = 3 ∧
    (∀ call ∈ bodyCalls s.instructions.toList, call.command ≠ .penUp) ∧
    Leads (0.0, 0.0) s.drawing.lines (s.drawing.turtle.x, s.drawing.turtle.y) := by
  intro s
  have hsizes : s.error.isSome = true ∧ s.drawing.lines.length = 4 ∧
      s.drawing.turns.length = 3 := by decide +kernel
  have hpen : ∀ call ∈ bodyCalls s.instructions.toList, call.command ≠ .penUp := by decide +kernel
  obtain ⟨-, -, htokens⟩ := log_traces_the_turtle
  obtain ⟨-, -, htrail⟩ := htokens (lex strayText 1).tokens
  exact ⟨hsizes.1, hsizes.2.1, hsizes.2.2, hpen, htrail hpen⟩

end Script

end TurtleScript
