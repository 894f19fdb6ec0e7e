-- Reading tokens without recording them. This is all that counts for the
-- grammar: white space does nothing then, and outside all calls a token starts
-- one or ends a block, while a call that waits for an argument is given it.
import TurtleScript.Proofs.Grammar
import TurtleScript.Proofs.Stepping
import TurtleScript.Proofs.Taking

namespace TurtleScript.Script

/-! ## Reading without a record -/

/-- The script after a token that it does not record. -/
def advance? (s : Script) (t : Token) : Option Script := (s.step t).toOption.map (·.1)

def advanceAll? (s : Script) (tokens : List Token) : Option Script := tokens.foldlM advance? s

@[simp] theorem advanceAll?_nil (s : Script) : s.advanceAll? [] = some s := rfl

@[simp] theorem advanceAll?_cons (s : Script) (t : Token) (tokens : List Token) :
    s.advanceAll? (t :: tokens) = (s.advance? t).bind (advanceAll? · tokens) := rfl

/-- The script without its record: no tokens, no error and no name. -/
def core (s : Script) : Script := s.dress #[] none defaultName

theorem advance?_core (s : Script) (t : Token) : s.core.advance? t = (s.take? t).map core := by
  unfold advance? take? core
  rw [step_dress]
  cases s.step t <;> rfl

/-- Reading does not need the record. -/
theorem advanceAll?_core (s : Script) (tokens : List Token) :
    s.core.advanceAll? tokens = (s.takeAll? tokens).map core := by
  induction tokens generalizing s with
  | nil => rfl
  | cons t tokens ih =>
    rw [advanceAll?_cons, takeAll?_cons, advance?_core]
    cases s.take? t with
    | none => rfl
    | some next => exact ih next

/-- A text is read as its tokens are. -/
theorem advanceAll?_lex (s : Script) (text : String) :
    s.core.advanceAll? (lex text s.nextLine).tokens = (s.submitted? text).map core :=
  advanceAll?_core (s.titled none s.name) _

/-! ## White space -/

/-- What waits is not complete. -/
def WaitsRightly (s : Script) : Prop := ∀ i, s.current = some i → i.isComplete = false

theorem WaitsRightly.settle {s : Script} (h : s.WaitsRightly) (i : Instruction) :
    (s.settle i).WaitsRightly := by
  unfold Script.settle
  by_cases hi : i.isComplete = false
  · rw [if_pos hi]
    intro j hj
    cases hj
    exact hi
  · rw [if_neg hi]
    split
    · exact h
    · exact h

theorem WaitsRightly.advance? {s r : Script} {t : Token} (h : s.WaitsRightly)
    (hr : s.advance? t = some r) : r.WaitsRightly := by
  have hnone : s.unwaited.WaitsRightly := fun i hi => by cases hi
  unfold Script.advance? at hr
  cases hstep : s.step t with
  | error fault => simp [hstep, Except.toOption] at hr
  | ok p =>
    obtain ⟨next, owner⟩ := p
    have hnext : next = r := by simpa [hstep, Except.toOption] using hr
    subst hnext
    cases stepped_of_step hstep with
    | idle hc hk => exact h
    | started command hc hk hl =>
      have hmore : ({ s with nextId := s.nextId + 1 } : Script).WaitsRightly := h
      exact hmore.settle _
    | closed block blocks hc ho hk =>
      have hrest : ({ s with openBlocks := blocks } : Script).WaitsRightly := h
      exact hrest.settle _
    | ignored i hc hf => exact hnone.settle i
    | bound i j hc hf => exact hnone.settle j
    | opened i param hc hf => exact hnone

theorem WaitsRightly.advanceAll? {s r : Script} {tokens : List Token} (h : s.WaitsRightly)
    (hr : s.advanceAll? tokens = some r) : r.WaitsRightly := by
  induction tokens generalizing s with
  | nil =>
    rw [advanceAll?_nil, Option.some.injEq] at hr
    exact hr ▸ h
  | cons t tokens ih =>
    rw [advanceAll?_cons, Option.bind_eq_some_iff] at hr
    obtain ⟨next, hnext, hr⟩ := hr
    exact ih (h.advance? hnext) hr

theorem WaitsRightly.takeAll? {s r : Script} {tokens : List Token} (h : s.WaitsRightly)
    (hr : s.takeAll? tokens = some r) : r.WaitsRightly := by
  have hcore : s.core.WaitsRightly := h
  have hread := advanceAll?_core s tokens
  rw [hr, Option.map_some] at hread
  have hwaits : r.core.WaitsRightly := hcore.advanceAll? hread
  exact hwaits

theorem WaitsRightly.submitted? {s r : Script} {text : String} (h : s.WaitsRightly)
    (hr : s.submitted? text = some r) : r.WaitsRightly := by
  have htitled : (s.titled none s.name).WaitsRightly := h
  exact htitled.takeAll? hr

theorem settle_waiting {s : Script} {i : Instruction} (hi : i.isComplete = false) :
    s.settle i = { s with current := some i } := if_pos hi

/-- White space changes nothing but the record. -/
theorem advance?_blank {s : Script} {t : Token} (h : s.WaitsRightly) (ht : t.isBlank = true) :
    s.advance? t = some s := by
  have hk : t.kind = .whitespace := by simpa [Token.isBlank] using ht
  unfold advance? step
  cases hc : s.current with
  | none => simp [stepOutside, hk, Except.map, Except.toOption]
  | some i =>
    have hfeed : i.feed t = .ok .ignored := by
      unfold Instruction.feed
      cases i.nextParam? with
      | none => rfl
      | some param => simp [hk]
    have hself : ({ s with current := none } : Script).settle i = s := by
      rw [settle_waiting (h i hc), ← hc]
    simp [stepInside, hfeed, hself, Except.map, Except.toOption]

theorem advanceAll?_solid {s : Script} (h : s.WaitsRightly) (tokens : List Token) :
    s.advanceAll? (solid tokens) = s.advanceAll? tokens := by
  induction tokens generalizing s with
  | nil => rfl
  | cons t tokens ih =>
    unfold solid
    by_cases ht : t.isBlank = true
    · rw [List.filter_cons_of_neg (by simp [ht]), advanceAll?_cons, advance?_blank h ht]
      exact ih h
    · rw [List.filter_cons_of_pos (by simp [ht]), advanceAll?_cons, advanceAll?_cons]
      cases hr : s.advance? t with
      | none => rfl
      | some r => exact ih (h.advance? hr)

/-! ## What the tokens of a statement do -/

/-- The script once the ids below `n` are given out. -/
def upTo (s : Script) (n : Nat) : Script := { s with nextId := n }

/-- The script with one more block open. -/
def opening (s : Script) (block : OpenBlock) : Script :=
  { s with openBlocks := block :: s.openBlocks }

/-- Settles instructions one after another. -/
def settleAll (s : Script) (body : List Instruction) : Script := body.foldl settle s

theorem upTo_settle (s : Script) (i : Instruction) (n : Nat) :
    (s.settle i).upTo n = (s.upTo n).settle i := by
  obtain ⟨current, openBlocks, _⟩ := s
  unfold settle upTo
  by_cases hi : i.isComplete = false
  · rw [if_pos hi, if_pos hi]
  · rw [if_neg hi, if_neg hi]
    cases openBlocks <;> rfl

theorem current_settle {s : Script} {i : Instruction} (hi : i.isComplete = true) :
    (s.settle i).current = s.current := by
  unfold settle
  rw [if_neg (by simp [hi])]
  split <;> rfl

theorem openBlocks_settle_eq_nil_iff {s : Script} {i : Instruction} (hi : i.isComplete = true) :
    (s.settle i).openBlocks = [] ↔ s.openBlocks = [] := by
  unfold settle
  rw [if_neg (by simp [hi])]
  split
  · next block blocks ho => simp [ho]
  · next ho => simp [ho]

theorem advance?_command {s : Script} {t : Token} {command : Command} (hc : s.current = none)
    (ht : t.IsText) (hl : Command.lookup? t.text = some command) :
    s.advance? t = some ((s.upTo (s.nextId + 1)).settle (.new s.nextId command)) := by
  unfold advance? step upTo
  rcases ht with hk | hk <;> simp [hc, stepOutside, hk, hl, Except.map, Except.toOption]

theorem advance?_close {s : Script} {block : OpenBlock} {t : Token} (hc : s.current = none)
    (hk : t.kind = .bracketClose) :
    (s.opening block).advance? t =
      some (s.settle (block.instruction.bind (.block block.param block.statements.toList))) := by
  have hcurrent : (s.opening block).current = none := hc
  have hopen : (s.opening block).openBlocks.isEmpty = false := rfl
  unfold advance? step
  simp only [hcurrent, stepOutside, hk, hopen, Bool.false_eq_true, if_false]
  rfl

/-- An instruction that waits is fed, and what it makes of the token settles. -/
theorem advance?_waiting {s : Script} {i : Instruction} (hc : s.current = none)
    (hi : i.isComplete = false) (t : Token) :
    (s.settle i).advance? t =
      match i.feed t with
      | .error _ => none
      | .ok .ignored => some (s.settle i)
      | .ok (.bound j) => some (s.settle j)
      | .ok (.opens param) => some (s.opening ⟨i, param, #[]⟩) := by
  have hself : ({ s with current := none } : Script) = s := by rw [← hc]
  rw [settle_waiting hi]
  unfold advance? step
  simp only [stepInside, hself]
  cases i.feed t with
  | error fault => rfl
  | ok fed =>
    cases fed with
    | ignored => simp [Except.map, Except.toOption, settle_waiting hi]
    | bound j => rfl
    | opens param =>
      simp only [Except.map, Except.toOption, Option.map_some, opening]
      rw [hc]

/-! ## Arguments -/

theorem params_nodup (c : Command) : c.params.Nodup := by
  cases c <;> decide

theorem bindArg_of_notMem {arg : Arg} {done : List Arg} (h : arg.param ∉ done.map Arg.param) :
    bindArg arg done = done ++ [arg] := by
  induction done with
  | nil => rfl
  | cons a done ih =>
    simp only [List.map_cons, List.mem_cons, not_or] at h
    rw [bindArg, if_neg (fun he => h.1 he.symm), ih h.2]
    rfl

section Call

variable {id : Nat} {command : Command} {done : List Arg} {param : Param} {params : List Param}
  {complete : Bool}

/-- The first open parameter of a call is the one after those that are bound. -/
theorem nextParam?_eq (h : command.params = done.map Arg.param ++ param :: params) :
    (⟨id, command, done, complete⟩ : Instruction).nextParam? = some param := by
  unfold Instruction.nextParam?
  simp [h]

theorem bind_eq {arg : Arg} (h : command.params = done.map Arg.param ++ param :: params)
    (harg : arg.param = param) :
    (⟨id, command, done, complete⟩ : Instruction).bind arg =
      ⟨id, command, done ++ [arg], params.isEmpty⟩ := by
  have hnodup := params_nodup command
  rw [h, List.nodup_append] at hnodup
  have hnew : arg.param ∉ done.map Arg.param := by
    intro hmem
    exact hnodup.2.2 _ hmem param List.mem_cons_self harg
  have hnext : command.params[(done ++ [arg]).length]?.isNone = params.isEmpty := by
    rw [h]
    cases params <;> simp
  unfold Instruction.bind Instruction.nextParam?
  simp only [bindArg_of_notMem hnew, hnext]

end Call

theorem numberFor_eq_ok_iff {command : Command} {param : Param} {t : Token} {x : Float}
    (hp : param.kind ≠ .block) : numberFor command param t = .ok x ↔ param.Admits t.text x := by
  unfold numberFor Param.Admits
  cases hx : Decimal.number? t.text with
  | none => simp
  | some y =>
    simp only
    by_cases hwhole : param.kind = .integer ∧ isWhole y = false
    · rw [if_pos hwhole]
      simp only [reduceCtorEq, Option.some.injEq, false_iff, not_and]
      rintro - rfl hall
      have := (hall hwhole.1).1
      rw [hwhole.2] at this
      cases this
    · rw [if_neg hwhole]
      by_cases hlarge : param.kind = .integer ∧ Float.ofNat maxTimes < y
      · rw [if_pos hlarge]
        simp only [reduceCtorEq, Option.some.injEq, false_iff, not_and]
        rintro - rfl hall
        exact (hall hlarge.1).2 hlarge.2
      · rw [if_neg hlarge]
        simp only [Except.ok.injEq, Option.some.injEq]
        constructor
        · rintro rfl
          refine ⟨hp, rfl, ?_⟩
          intro hk
          refine ⟨?_, fun h => hlarge ⟨hk, h⟩⟩
          cases hw : isWhole y with
          | true => rfl
          | false => exact absurd ⟨hk, hw⟩ hwhole
        · exact fun h => h.2.1

theorem feed_number {i : Instruction} {param : Param} {t : Token} {x : Float}
    (hp : i.nextParam? = some param) (ht : t.IsText) (hx : param.Admits t.text x) :
    i.feed t = .ok (.bound (i.bind (.number param x))) := by
  have hnumber : numberFor i.command param t = .ok x := (numberFor_eq_ok_iff hx.1).mpr hx
  have hkind := hx.1
  unfold Instruction.feed
  rw [hp]
  rcases ht with ht | ht <;> cases hk : param.kind <;>
    simp_all [Except.map]

theorem feed_open {i : Instruction} {param : Param} {t : Token} (hp : i.nextParam? = some param)
    (hk : param.kind = .block) (ht : t.kind = .bracketOpen) : i.feed t = .ok (.opens param) := by
  unfold Instruction.feed
  simp [hp, hk, ht]

/-! ## What a token has to be -/

/-- Outside all calls a token names a command or ends a block. -/
theorem outside_of_advance? {s next : Script} {t : Token} (hc : s.current = none)
    (hb : t.isBlank = false) (h : s.advance? t = some next) :
    (t.IsText ∧ ∃ command, Command.lookup? t.text = some command) ∨
      (t.kind = .bracketClose ∧ s.openBlocks ≠ []) := by
  unfold advance? at h
  cases hstep : s.step t with
  | error fault => simp [hstep, Except.toOption] at h
  | ok p =>
    obtain ⟨result, owner⟩ := p
    cases stepped_of_step hstep with
    | idle _ hk => simp [Token.isBlank, hk] at hb
    | started command _ hk hl => exact Or.inl ⟨hk, command, hl⟩
    | closed block blocks _ ho hk => exact Or.inr ⟨hk, by simp [ho]⟩
    | ignored i hi _ => simp [hc] at hi
    | bound i j hi _ => simp [hc] at hi
    | opened i param hi _ => simp [hc] at hi

/-- A call that waits takes a number or the bracket of its block. -/
theorem inside_of_advance? {s next : Script} {i : Instruction} {param : Param} {t : Token}
    (hc : s.current = none) (hi : i.isComplete = false) (hp : i.nextParam? = some param)
    (hb : t.isBlank = false) (h : (s.settle i).advance? t = some next) :
    (t.IsText ∧ ∃ x, param.Admits t.text x) ∨ (param.kind = .block ∧ t.kind = .bracketOpen) := by
  rw [advance?_waiting hc hi] at h
  cases hf : i.feed t with
  | error fault => simp [hf] at h
  | ok fed =>
    cases fed with
    | ignored =>
      rcases ignored_of_feed hf with hnone | hk
      · simp [hp] at hnone
      · simp [Token.isBlank, hk] at hb
    | bound j =>
      obtain ⟨p, x, hnext, hk, ht, hx, -⟩ := bound_of_feed hf
      have hsame : p = param := by simpa [hnext] using hp
      subst hsame
      exact Or.inl ⟨ht, x, (numberFor_eq_ok_iff hk).mp hx⟩
    | opens p =>
      obtain ⟨hnext, hk, ht⟩ := opens_of_feed hf
      have hsame : p = param := by simpa [hnext] using hp
      subst hsame
      exact Or.inr ⟨hk, ht⟩

end TurtleScript.Script
