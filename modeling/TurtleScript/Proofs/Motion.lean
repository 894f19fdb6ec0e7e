-- What an instruction does, motion by motion. However deep its blocks are, it
-- comes down to a row of moves, turns and changes of the pen. So what one
-- motion keeps is kept by every instruction.
import TurtleScript.Drawing
import TurtleScript.Proofs.Grammar

namespace TurtleScript

/-! ## Motions -/

/-- The least that a turtle can be told. -/
inductive Motion where
  | move (distance : Float)
  | turn (angle : Float)
  | setPen (penDown : Bool)

namespace Drawing

def follow (d : Drawing) : Motion → Drawing
  | .move distance => d.move distance
  | .turn angle => d.turn angle
  | .setPen penDown => d.setPen penDown

def followAll (d : Drawing) (motions : List Motion) : Drawing := motions.foldl follow d

@[simp] theorem followAll_nil (d : Drawing) : d.followAll [] = d := rfl

@[simp] theorem followAll_cons (d : Drawing) (m : Motion) (motions : List Motion) :
    d.followAll (m :: motions) = (d.follow m).followAll motions := rfl

theorem followAll_append (d : Drawing) (xs ys : List Motion) :
    d.followAll (xs ++ ys) = (d.followAll xs).followAll ys := List.foldl_append

theorem followAll_replicate (motions : List Motion) (n : Nat) (d : Drawing) :
    d.followAll (List.replicate n motions).flatten = iterate (·.followAll motions) n d := by
  induction n generalizing d with
  | zero => rfl
  | succ n ih =>
    rw [List.replicate_succ, List.flatten_cons, followAll_append, ih]
    rfl

end Drawing

/-! ## The motions of an instruction -/

mutual
/-- The motions that an instruction comes down to, those of a loop as often as its count says. -/
def Instruction.motions : Instruction → List Motion
  | ⟨_, command, args, _⟩ =>
    match command with
    | .forward => [.move (numberArg .distance args)]
    | .back => [.move (-numberArg .distance args)]
    | .left => [.turn (-numberArg .angle args)]
    | .right => [.turn (numberArg .angle args)]
    | .loop => (List.replicate (countOf (numberArg .times args)) (blockMotions args)).flatten
    | .penUp => [.setPen false]
    | .penDown => [.setPen true]

/-- The motions of the statements among the arguments. -/
def blockMotions : List Arg → List Motion
  | [] => []
  | .number param _ :: args => if param = .statements then [] else blockMotions args
  | .block param body :: args => if param = .statements then bodyMotions body else blockMotions args

def bodyMotions : List Instruction → List Motion
  | [] => []
  | i :: body => i.motions ++ bodyMotions body
end

mutual
/-- To perform an instruction is to follow its motions. -/
theorem Instruction.perform_eq : (i : Instruction) → (d : Drawing) →
    i.perform d = d.followAll i.motions
  | ⟨_, command, args, _⟩, d => by
    unfold Instruction.perform Instruction.motions
    cases command with
    | forward | back | left | right | penUp | penDown => rfl
    | loop =>
      have hblock : performBlock args = (·.followAll (blockMotions args)) :=
        funext (performBlock_eq args)
      simp only
      rw [Drawing.followAll_replicate, hblock]

theorem performBlock_eq : (args : List Arg) → (d : Drawing) →
    performBlock args d = d.followAll (blockMotions args)
  | [], d => by
    rw [performBlock, blockMotions, Drawing.followAll_nil]
  | .number param _ :: args, d => by
    rw [performBlock, blockMotions]
    split
    · rfl
    · exact performBlock_eq args d
  | .block param body :: args, d => by
    rw [performBlock, blockMotions]
    split
    · exact performAll_eq body d
    · exact performBlock_eq args d

theorem performAll_eq : (body : List Instruction) → (d : Drawing) →
    performAll body d = d.followAll (bodyMotions body)
  | [], d => by
    rw [performAll, bodyMotions, Drawing.followAll_nil]
  | i :: body, d => by
    rw [performAll, bodyMotions, Drawing.followAll_append, i.perform_eq d, performAll_eq body]
end

-- The pen is lifted by one command only, wherever in the tree it stands.
mutual
theorem Instruction.exists_penUp : (i : Instruction) → .setPen false ∈ i.motions →
    ∃ call ∈ i.calls, call.command = .penUp
  | ⟨id, command, args, complete⟩, h => by
    rw [Instruction.calls]
    unfold Instruction.motions at h
    cases command with
    | forward | back | left | right | penDown => simp at h
    | penUp => exact ⟨_, List.mem_cons_self, rfl⟩
    | loop =>
      simp only [List.mem_flatten, List.mem_replicate] at h
      obtain ⟨_, ⟨-, rfl⟩, hblock⟩ := h
      obtain ⟨call, hcall, hpen⟩ := exists_penUp_of_block args hblock
      exact ⟨call, List.mem_cons_of_mem _ hcall, hpen⟩

theorem exists_penUp_of_block : (args : List Arg) → .setPen false ∈ blockMotions args →
    ∃ call ∈ argCalls args, call.command = .penUp
  | [], h => by simp [blockMotions] at h
  | .number param _ :: args, h => by
    rw [blockMotions] at h
    rw [argCalls]
    split at h
    · simp at h
    · exact exists_penUp_of_block args h
  | .block param body :: args, h => by
    rw [blockMotions] at h
    rw [argCalls]
    split at h
    · obtain ⟨call, hcall, hpen⟩ := exists_penUp_of_body body h
      exact ⟨call, List.mem_append_left _ hcall, hpen⟩
    · obtain ⟨call, hcall, hpen⟩ := exists_penUp_of_block args h
      exact ⟨call, List.mem_append_right _ hcall, hpen⟩

theorem exists_penUp_of_body : (body : List Instruction) → .setPen false ∈ bodyMotions body →
    ∃ call ∈ bodyCalls body, call.command = .penUp
  | [], h => by simp [bodyMotions] at h
  | i :: body, h => by
    rw [bodyMotions, List.mem_append] at h
    rw [bodyCalls]
    rcases h with h | h
    · obtain ⟨call, hcall, hpen⟩ := i.exists_penUp h
      exact ⟨call, List.mem_append_left _ hcall, hpen⟩
    · obtain ⟨call, hcall, hpen⟩ := exists_penUp_of_body body h
      exact ⟨call, List.mem_append_right _ hcall, hpen⟩
end

/-! ## What a motion does -/

namespace Drawing

/-- The ways in which a motion changes a drawing. -/
inductive Follows (d : Drawing) : Motion → Drawing → Prop
  | drew (distance x y : Float) : d.turtle.penDown = true → Follows d (.move distance)
      ⟨{ d.turtle with x, y }, d.log.push (.line d.log.size d.turtle.x d.turtle.y x y)⟩
  | moved (distance x y : Float) : d.turtle.penDown = false → Follows d (.move distance)
      ⟨{ d.turtle with x, y }, d.log⟩
  | turned (by_ angle : Float) : Follows d (.turn by_)
      ⟨{ d.turtle with angle }, d.log.push (.rotate d.log.size d.turtle.angle angle)⟩
  | set (penDown : Bool) : Follows d (.setPen penDown) ⟨{ d.turtle with penDown }, d.log⟩

theorem follows (d : Drawing) (m : Motion) : d.Follows m (d.follow m) := by
  cases m with
  | move distance =>
    simp only [follow, move]
    by_cases hpen : d.turtle.penDown = true
    · rw [if_pos hpen]
      exact .drew distance _ _ hpen
    · rw [if_neg hpen]
      exact .moved distance _ _ (by simpa using hpen)
  | turn by_ => exact .turned by_ _
  | setPen penDown => exact .set penDown

/-- What motions keep one by one is kept by all of them. -/
theorem followAll_keeps {P : Drawing → Prop} {motions : List Motion}
    (h : ∀ m ∈ motions, ∀ d : Drawing, P d → P (d.follow m)) {d : Drawing} (hd : P d) :
    P (d.followAll motions) := by
  induction motions generalizing d with
  | nil => exact hd
  | cons m motions ih =>
    exact ih (fun n hn => h n (List.mem_cons_of_mem _ hn)) (h m List.mem_cons_self d hd)

end Drawing

/-! ## What motions add to a log -/

/-- A motion extends all logs of one length by the same entries. -/
theorem Motion.extends_log (m : Motion) (t : Turtle) (n : Nat) :
    ∃ (u : Turtle) (added : Array DrawCommand), ∀ log : Array DrawCommand, log.size = n →
      (⟨t, log⟩ : Drawing).follow m = ⟨u, log ++ added⟩ := by
  cases m with
  | move distance =>
    obtain ⟨u, hu⟩ : ∃ u, u = ((⟨t, #[]⟩ : Drawing).move distance).turtle := ⟨_, rfl⟩
    refine ⟨u, if t.penDown then #[.line n t.x t.y u.x u.y] else #[], fun log hlog => ?_⟩
    subst hlog hu
    cases hpen : t.penDown <;> simp [Drawing.follow, Drawing.move, hpen]
  | turn angle =>
    refine ⟨{ t with angle := t.angle + angle }, #[.rotate n t.angle (t.angle + angle)],
      fun log hlog => ?_⟩
    subst hlog
    simp [Drawing.follow, Drawing.turn]
  | setPen penDown =>
    exact ⟨{ t with penDown }, #[], fun log _ => by simp [Drawing.follow, Drawing.setPen]⟩

theorem Motion.extend_log (motions : List Motion) (t : Turtle) (n : Nat) :
    ∃ (u : Turtle) (added : Array DrawCommand), ∀ log : Array DrawCommand, log.size = n →
      (⟨t, log⟩ : Drawing).followAll motions = ⟨u, log ++ added⟩ := by
  induction motions generalizing t n with
  | nil => exact ⟨t, #[], fun log _ => by simp⟩
  | cons m motions ih =>
    obtain ⟨u, first, hfirst⟩ := m.extends_log t n
    obtain ⟨v, rest, hrest⟩ := ih u (n + first.size)
    refine ⟨v, first ++ rest, fun log hlog => ?_⟩
    rw [Drawing.followAll_cons, hfirst log hlog, hrest _ (by rw [Array.size_append, hlog]),
      Array.append_assoc]

end TurtleScript
