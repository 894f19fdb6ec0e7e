-- How many entries an instruction adds to the log, counted without performing
-- it. A loop does not just multiply: its first round starts with the pen as it
-- is, and all others start with the pen as the first one leaves it.
import TurtleScript.Proofs.Motion
import TurtleScript.Proofs.Unrolling

namespace TurtleScript

/-! ## The pen -/

/-- How often a loop with these arguments goes round: the part of its count before the point, and
never if that is below zero. -/
def rounds (args : List Arg) : Nat :=
  (max 0 (Binary.ofFloat (numberArg .times args)).toWord).toNat

mutual
/-- The pen after an instruction, from the pen before it. -/
def Instruction.penAfter : Instruction → Bool → Bool
  | ⟨_, command, args, _⟩, pen =>
    match command with
    | .forward | .back | .left | .right => pen
    | .penUp => false
    | .penDown => true
    | .loop => if rounds args = 0 then pen else blockPen args pen

def blockPen : List Arg → Bool → Bool
  | [], pen => pen
  | .number param _ :: args, pen => if param = .statements then pen else blockPen args pen
  | .block param body :: args, pen =>
    if param = .statements then bodyPen body pen else blockPen args pen

def bodyPen : List Instruction → Bool → Bool
  | [], pen => pen
  | i :: body, pen => bodyPen body (i.penAfter pen)
end

/-- Either the pen stays as it is, or it is the same afterwards whatever it was before. -/
def IsSteady (after : Bool → Bool) : Prop := (∀ pen, after pen = pen) ∨ ∃ b, ∀ pen, after pen = b

theorem IsSteady.twice {after : Bool → Bool} (h : IsSteady after) (pen : Bool) :
    after (after pen) = after pen := by
  rcases h with hsame | ⟨b, hb⟩
  · exact hsame _
  · rw [hb, hb]

theorem IsSteady.comp {f g : Bool → Bool} (hf : IsSteady f) (hg : IsSteady g) :
    IsSteady fun pen => g (f pen) := by
  rcases hg with hg | ⟨b, hb⟩
  · simpa only [hg] using hf
  · exact Or.inr ⟨b, fun pen => hb _⟩

theorem isSteady_same : IsSteady fun pen => pen := Or.inl fun _ => rfl

theorem IsSteady.ite {f g : Bool → Bool} (hf : IsSteady f) (hg : IsSteady g) (c : Prop) [Decidable c] :
    IsSteady fun pen => if c then f pen else g pen := by
  by_cases hc : c
  · simpa only [hc, if_true] using hf
  · simpa only [hc, if_false] using hg

mutual
theorem Instruction.isSteady : (i : Instruction) → IsSteady i.penAfter
  | ⟨_, command, args, _⟩ =>
    match command with
    | .forward | .back | .left | .right => isSteady_same
    | .penUp => Or.inr ⟨false, fun _ => rfl⟩
    | .penDown => Or.inr ⟨true, fun _ => rfl⟩
    | .loop => isSteady_same.ite (isSteady_blockPen args) (rounds args = 0)

theorem isSteady_blockPen : (args : List Arg) → IsSteady (blockPen args)
  | [] => isSteady_same
  | .number param _ :: args => isSteady_same.ite (isSteady_blockPen args) (param = .statements)
  | .block param body :: args =>
    (isSteady_bodyPen body).ite (isSteady_blockPen args) (param = .statements)

theorem isSteady_bodyPen : (body : List Instruction) → IsSteady (bodyPen body)
  | [] => isSteady_same
  | i :: body => i.isSteady.comp (isSteady_bodyPen body)
end

/-! ## Entries -/

mutual
/-- How many entries an instruction adds to the log, from the pen before it. -/
def Instruction.entryCount : Instruction → Bool → Nat
  | ⟨_, command, args, _⟩, pen =>
    match command with
    | .left | .right => 1
    | .forward | .back => if pen then 1 else 0
    | .penUp | .penDown => 0
    | .loop =>
      if rounds args = 0 then 0
      else blockEntryCount args pen + (rounds args - 1) * blockEntryCount args (blockPen args pen)

def blockEntryCount : List Arg → Bool → Nat
  | [], _ => 0
  | .number param _ :: args, pen => if param = .statements then 0 else blockEntryCount args pen
  | .block param body :: args, pen =>
    if param = .statements then bodyEntryCount body pen else blockEntryCount args pen

def bodyEntryCount : List Instruction → Bool → Nat
  | [], _ => 0
  | i :: body, pen => i.entryCount pen + bodyEntryCount body (i.penAfter pen)
end

/-- What is done to drawings adds as many entries as `count` says, and leaves the pen as `after`
says. -/
structure Adds (f : Drawing → Drawing) (count : Bool → Nat) (after : Bool → Bool) : Prop where
  size : ∀ d, (f d).log.size = d.log.size + count d.turtle.penDown
  penDown : ∀ d, (f d).turtle.penDown = after d.turtle.penDown

namespace Adds

variable {f g : Drawing → Drawing} {count more : Bool → Nat} {after last : Bool → Bool}

theorem nothing : Adds (fun d => d) (fun _ => 0) fun pen => pen := ⟨fun _ => rfl, fun _ => rfl⟩

theorem move (distance : Float) :
    Adds (·.move distance) (fun pen => if pen then 1 else 0) fun pen => pen := by
  refine ⟨fun d => ?_, fun d => rfl⟩
  cases hpen : d.turtle.penDown <;> simp [Drawing.move, hpen]

theorem turn (by_ : Float) : Adds (·.turn by_) (fun _ => 1) fun pen => pen :=
  ⟨fun d => by simp [Drawing.turn], fun d => rfl⟩

theorem setPen (penDown : Bool) : Adds (·.setPen penDown) (fun _ => 0) fun _ => penDown :=
  ⟨fun _ => rfl, fun _ => rfl⟩

theorem andThen (hf : Adds f count after) (hg : Adds g more last) :
    Adds (fun d => g (f d)) (fun pen => count pen + more (after pen)) fun pen => last (after pen) :=
  ⟨fun d => by rw [hg.size, hf.size, hf.penDown, Nat.add_assoc], fun d => by rw [hg.penDown, hf.penDown]⟩

/-- All rounds but the first begin with the pen that the first one leaves. -/
theorem iterate (h : Adds f count after) (hsteady : IsSteady after) (n : Nat) :
    Adds (TurtleScript.iterate f n)
      (fun pen => if n = 0 then 0 else count pen + (n - 1) * count (after pen))
      fun pen => if n = 0 then pen else after pen := by
  induction n with
  | zero => exact nothing
  | succ n ih =>
    have hstep := h.andThen ih
    refine ⟨fun d => ?_, fun d => ?_⟩
    · refine (hstep.size d).trans ?_
      cases n with
      | zero => simp
      | succ n => simp [hsteady.twice, Nat.succ_mul, Nat.add_comm]
    · refine (hstep.penDown d).trans ?_
      simp [hsteady.twice]

theorem ite (hf : Adds f count after) (hg : Adds g more last) (c : Prop) [Decidable c] :
    Adds (fun d => if c then f d else g d) (fun pen => if c then count pen else more pen)
      fun pen => if c then after pen else last pen := by
  by_cases hc : c
  · simpa only [hc, if_true] using hf
  · simpa only [hc, if_false] using hg

end Adds

theorem rounds_eq (args : List Arg) : rounds args = countOf (numberArg .times args) := by
  unfold rounds countOf
  rw [← Binary.count_eq, Int.toNat_natCast]

mutual
theorem Instruction.adds : (i : Instruction) → Adds i.perform i.entryCount i.penAfter
  | ⟨id, command, args, complete⟩ =>
    match command with
    | .forward | .back => .move _
    | .left | .right => .turn _
    | .penUp | .penDown => .setPen _
    | .loop => by
      have hloop : Instruction.perform ⟨id, .loop, args, complete⟩ =
          iterate (performBlock args) (rounds args) := funext fun d => by
        rw [Instruction.perform, rounds_eq]
      rw [hloop]
      exact (adds_performBlock args).iterate (isSteady_blockPen args) _

theorem adds_performBlock : (args : List Arg) →
    Adds (performBlock args) (blockEntryCount args) (blockPen args)
  | [] => .nothing
  | .number param _ :: args => Adds.nothing.ite (adds_performBlock args) (param = .statements)
  | .block param body :: args =>
    (adds_performAll body).ite (adds_performBlock args) (param = .statements)

theorem adds_performAll : (body : List Instruction) →
    Adds (performAll body) (bodyEntryCount body) (bodyPen body)
  | [] => .nothing
  | i :: body => i.adds.andThen (adds_performAll body)
end

/-- An instruction of any shape adds to the end of the log exactly as many entries as are counted
for it, and leaves the pen as it is reckoned. -/
theorem drawing_grows_as_counted (i : Instruction) (d : Drawing) :
    (∃ added : Array DrawCommand, (i.perform d).log = d.log ++ added ∧
      added.size = i.entryCount d.turtle.penDown) ∧
    (i.perform d).turtle.penDown = i.penAfter d.turtle.penDown := by
  obtain ⟨u, added, hadded⟩ := Motion.extend_log i.motions d.turtle d.log.size
  have hperform : i.perform d = ⟨u, d.log ++ added⟩ := by
    rw [i.perform_eq]
    exact hadded d.log rfl
  have hsize := i.adds.size d
  rw [hperform, Array.size_append, Nat.add_left_cancel_iff] at hsize
  exact ⟨⟨added, by rw [hperform], hsize⟩, i.adds.penDown d⟩

-- The pen is lifted at the end of the first round, so the other rounds draw nothing.
example : Instruction.entryCount ⟨0, .loop, [.number .times 9.0, .block .statements
    [⟨1, .forward, [.number .distance 5.0], true⟩, ⟨2, .penUp, [], true⟩]], true⟩ true = 1 := by
  decide +kernel

end TurtleScript
