-- The tags of tokens part a script into its statements. A statement does not
-- depend on those before it, except that its ids begin where theirs end; so its
-- tokens alone make the same statement, with ids from zero.
import TurtleScript.Proofs.Numbering
import TurtleScript.Proofs.Rebuilding
import TurtleScript.Proofs.Renumbering

namespace TurtleScript

/-! ## Scripts one after another -/

def OpenBlock.renumbered (f : Nat → Nat) (block : OpenBlock) : OpenBlock :=
  ⟨block.instruction.renumbered f, block.param, block.statements.map (·.renumbered f)⟩

theorem performAll_append (xs ys : List Instruction) (d : Drawing) :
    performAll (xs ++ ys) d = performAll ys (performAll xs d) := by
  induction xs generalizing d with
  | nil => rfl
  | cons i xs ih =>
    rw [List.cons_append, performAll, performAll]
    exact ih _

namespace Script

/-- The first script with the second one read behind it: the ids of the second begin where those
of the first end, and it draws on where the first has stopped. -/
def andThen (s r : Script) : Script where
  current := r.current.map (·.renumbered (· + s.nextId))
  openBlocks := r.openBlocks.map (·.renumbered (· + s.nextId))
  instructions := s.instructions ++ r.instructions.map (·.renumbered (· + s.nextId))
  tokens := s.tokens ++ r.tokens.map fun t => ⟨t.toToken, t.owner.map (· + s.nextId)⟩
  nextId := r.nextId + s.nextId
  drawing := performAll r.instructions.toList s.drawing
  error := s.error
  name := s.name

/-- Where nothing is open, a script is itself with nothing behind it. -/
theorem andThen_empty {s : Script} (hs : s.isIncomplete = false) : s.andThen empty = s := by
  obtain ⟨current, openBlocks, _⟩ := s
  obtain ⟨rfl, rfl⟩ : current = none ∧ openBlocks = [] := isIncomplete_eq_false_iff.mp hs
  simp [andThen, empty, performAll]

section AndThen

variable (s r : Script)

@[simp] theorem isIncomplete_andThen : (s.andThen r).isIncomplete = r.isIncomplete := by
  simp [isIncomplete, andThen]

theorem owner?_andThen : (s.andThen r).owner? = r.owner?.map (· + s.nextId) := by
  unfold owner? andThen
  simp only [List.getLast?_map]
  cases r.openBlocks.getLast? with
  | some block => simp [OpenBlock.renumbered]
  | none => cases r.current <;> simp

theorem settle_andThen (i : Instruction) :
    (s.andThen r).settle (i.renumbered (· + s.nextId)) = s.andThen (r.settle i) := by
  unfold settle
  rw [Instruction.isComplete_renumbered]
  split
  · rfl
  · cases ho : r.openBlocks with
    | nil =>
      simp [andThen, ho, performAll_append, performAll, Instruction.perform_renumbered]
    | cons block blocks =>
      simp [andThen, ho, OpenBlock.renumbered]

theorem closeBlock_andThen : (s.andThen r).closeBlock = s.andThen r.closeBlock := by
  unfold closeBlock
  cases ho : r.openBlocks with
  | nil => simp [andThen, ho]
  | cons block blocks =>
    have hsettle := settle_andThen s { r with openBlocks := blocks }
      (block.instruction.bind (.block block.param block.statements.toList))
    rw [← Instruction.bind_renumbered] at hsettle
    rw [← hsettle]
    simp [andThen, ho, OpenBlock.renumbered, Arg.renumbered]

theorem stepOutside_andThen (t : Token) :
    (s.andThen r).stepOutside t =
      (r.stepOutside t).map fun p => (s.andThen p.1, p.2.map (· + s.nextId)) := by
  unfold stepOutside
  cases t.kind with
  | whitespace => rfl
  | bracketOpen => rfl
  | bracketClose =>
    simp only
    rw [closeBlock_andThen]
    have hopen : (s.andThen r).openBlocks.isEmpty = r.openBlocks.isEmpty := by simp [andThen]
    rw [hopen]
    split <;> rfl
  | word | number =>
    simp only
    cases Command.lookup? t.text with
    | none => rfl
    | some command =>
      have hsettle := settle_andThen s { r with nextId := r.nextId + 1 } (.new r.nextId command)
      have hnext : ({ s.andThen r with nextId := (s.andThen r).nextId + 1 } : Script) =
          s.andThen { r with nextId := r.nextId + 1 } := by
        simp [andThen, Nat.add_right_comm]
      simp only [hnext, Except.map]
      rw [← hsettle]
      rfl

theorem stepInside_andThen (i : Instruction) (t : Token) :
    (s.andThen r).stepInside (i.renumbered (· + s.nextId)) t =
      (r.stepInside i t).map s.andThen := by
  have hunwaited : ({ s.andThen r with current := none } : Script) =
      s.andThen { r with current := none } := rfl
  unfold stepInside
  simp only [hunwaited, Instruction.feed_renumbered]
  cases i.feed t with
  | error fault => rfl
  | ok fed =>
    cases fed with
    | ignored => exact congrArg Except.ok (settle_andThen s { r with current := none } i)
    | bound j => exact congrArg Except.ok (settle_andThen s { r with current := none } j)
    | opens param =>
      simp [CallStep.renumbered, Except.map, andThen, OpenBlock.renumbered]

/-- A token does the same behind another script, with other ids. -/
theorem step_andThen (t : Token) :
    (s.andThen r).step t =
      (r.step t).map fun p => (s.andThen p.1, p.2.map (· + s.nextId)) := by
  unfold step
  rw [owner?_andThen]
  cases hc : r.current with
  | none =>
    have hcurrent : (s.andThen r).current = none := by simp [andThen, hc]
    simp only [hcurrent, stepOutside_andThen]
    cases r.stepOutside t with
    | error fault => rfl
    | ok p => cases r.owner? <;> rfl
  | some i =>
    have hcurrent : (s.andThen r).current = some (i.renumbered (· + s.nextId)) := by
      simp [andThen, hc]
    simp only [hcurrent, stepInside_andThen]
    cases r.stepInside i t with
    | error fault => rfl
    | ok next => cases r.owner? <;> simp [Except.map]

theorem take?_andThen (t : Token) : (s.andThen r).take? t = (r.take? t).map s.andThen := by
  unfold take?
  rw [step_andThen]
  cases r.step t with
  | error fault => rfl
  | ok p => simp [Except.map, andThen]

end AndThen

/-! ## The statement that a token belongs to -/

theorem owner?_eq (s : Script) :
    s.owner? = (s.openBlocks.getLast?.map (·.instruction.id)).or (s.current.map (·.id)) := by
  unfold owner?
  cases s.openBlocks.getLast? <;> rfl

theorem owner?_eq_none {s : Script} (h : s.isIncomplete = false) : s.owner? = none := by
  simp [owner?_eq, isIncomplete_eq_false_iff.mp h]

/-- A call that settles belongs to the outermost open block, or stands for itself, or it is a
statement that is complete. -/
theorem owner?_settle {s : Script} (hc : s.current = none) (i : Instruction) :
    (s.settle i).owner? = (s.openBlocks.getLast?.map (·.instruction.id)).or (some i.id) ∧
        (s.settle i).instructions = s.instructions ∨
      s.openBlocks = [] ∧ (s.settle i).isIncomplete = false ∧
        (s.settle i).instructions = s.instructions.push i := by
  unfold settle
  split
  · exact Or.inl ⟨by simp [owner?_eq], rfl⟩
  · cases ho : s.openBlocks with
    | nil => exact Or.inr ⟨rfl, by simp [isIncomplete, hc], rfl⟩
    | cons block blocks =>
      refine Or.inl ⟨?_, rfl⟩
      rw [owner?_eq]
      cases blocks <;> simp [List.getLast?_cons]

/-- While a statement waits all tokens belong to it, until it is complete. -/
theorem Stepped.owned {s next : Script} {t : Token} {owner : Option Nat}
    (h : Stepped s t next owner) {id : Nat} (hid : s.owner? = some id) :
    owner = some id ∧
      (next.owner? = some id ∧ next.instructions = s.instructions ∨
        next.isIncomplete = false ∧
          ∃ i, i.id = id ∧ next.instructions = s.instructions.push i) := by
  -- in all cases but two the step ends by settling a call; what waited goes on waiting, unless
  -- the call was the outermost one and is complete
  have hsettled : ∀ (before : Script) (i : Instruction), before.current = none →
      (before.openBlocks.getLast?.map (·.instruction.id)).or (some i.id) = some id →
      before.instructions = s.instructions →
      (before.settle i).owner? = some id ∧ (before.settle i).instructions = s.instructions ∨
        (before.settle i).isIncomplete = false ∧
          ∃ j : Instruction, j.id = id ∧
            (before.settle i).instructions = s.instructions.push j := by
    intro before i hc howner hsame
    rcases owner?_settle hc i with ⟨hnext, hinstructions⟩ | ⟨hopen, hdone, hinstructions⟩
    · exact Or.inl ⟨hnext.trans howner, hinstructions.trans hsame⟩
    · have hi : i.id = id := by simpa [hopen] using howner
      exact Or.inr ⟨hdone, i, hi, by rw [hinstructions, hsame]⟩
  rw [owner?_eq] at hid
  cases h with
  | idle => exact ⟨owner?_eq s ▸ hid, Or.inl ⟨owner?_eq s ▸ hid, rfl⟩⟩
  | started command hc hk hl =>
    rw [hc, Option.map_none, Option.or_none] at hid
    refine ⟨by simp [owner?_eq, hid], ?_⟩
    exact hsettled { s with nextId := s.nextId + 1 } _ hc (by simp [hid]) rfl
  | closed block blocks hc ho hk =>
    refine ⟨owner?_eq s ▸ hid, ?_⟩
    refine hsettled { s with openBlocks := blocks } _ hc ?_ rfl
    rw [hc, ho, Option.map_none, Option.or_none] at hid
    cases blocks with
    | nil => exact hid
    | cons b blocks => simpa [List.getLast?_cons] using hid
  | ignored i hc hf =>
    refine ⟨owner?_eq s ▸ hid, hsettled s.unwaited i rfl ?_ rfl⟩
    rw [hc] at hid
    exact hid
  | bound i j hc hf =>
    obtain ⟨param, x, -, -, -, -, rfl⟩ := bound_of_feed hf
    refine ⟨owner?_eq s ▸ hid, hsettled s.unwaited _ rfl ?_ rfl⟩
    rw [hc] at hid
    exact hid
  | opened i param hc hf =>
    refine ⟨owner?_eq s ▸ hid, Or.inl ⟨?_, rfl⟩⟩
    rw [owner?_eq]
    rw [hc] at hid
    cases ho : s.openBlocks with
    | nil => simpa [ho] using hid
    | cons b blocks => simpa [ho, List.getLast?_cons] using hid

/-! ## Parts -/

/-- The tokens with a tag. -/
def owned (s : Script) (id : Nat) : List TaggedToken := s.tokens.toList.filter (·.owner = some id)

/-- What the tokens with a tag make on their own. -/
def alone (s : Script) (id : Nat) : Script := empty.replay ((s.owned id).map (·.toToken))

/-- The tags part the tokens of a script into its statements. -/
structure Partitioned (s : Script) : Prop where
  /-- What has no tag is white space. -/
  untagged : ∀ t ∈ s.tokens.toList, t.owner = none → t.isBlank = true
  /-- The tags are the ids of the statements, and of the one that is unfinished. -/
  tags : ∀ id, (∃ t ∈ s.tokens.toList, t.owner = some id) ↔
    (∃ i ∈ s.instructions.toList, i.id = id) ∨ s.owner? = some id
  /-- The tokens with a tag stand together, after all smaller tags and before all larger ones. -/
  together : ∀ id, ∃ front back, s.tokens.toList = front ++ s.owned id ++ back ∧
    (∀ t ∈ front, ∀ o, t.owner = some o → o < id) ∧ ∀ t ∈ back, ∀ o, t.owner = some o → id < o
  /-- The tokens of a complete statement make a single one, that statement with all its ids less
  by its own. -/
  complete : ∀ i ∈ s.instructions.toList, (s.alone i.id).error = none ∧
    (s.alone i.id).isIncomplete = false ∧
    (s.alone i.id).instructions.map (·.renumbered (· + i.id)) = #[i]
  /-- The tokens of the unfinished statement leave it as far as it has been read, with all its ids
  less by its own. -/
  unfinished : ∀ id, s.owner? = some id → (s.alone id).error = none ∧
    (s.alone id).instructions = #[] ∧
    (s.alone id).current.map (·.renumbered (· + id)) = s.current ∧
    (s.alone id).openBlocks.map (·.renumbered (· + id)) = s.openBlocks

theorem partitioned_empty : empty.Partitioned where
  untagged := by simp [empty]
  tags := by simp [empty, owner?]
  together := fun id => ⟨[], [], by simp [empty, owned]⟩
  complete := by simp [empty]
  unfinished := by simp [empty, owner?]

/-- White space behind complete statements gets no tag. -/
theorem take?_blank {s : Script} (h : s.isIncomplete = false) {t : Token} (ht : t.isBlank = true) :
    s.take? t = some { s with tokens := s.tokens.push ⟨t, none⟩ } := by
  have hk : t.kind = .whitespace := by simpa [Token.isBlank] using ht
  unfold take? step
  simp [(isIncomplete_eq_false_iff.mp h).1, stepOutside, hk, Except.map, owner?_eq_none h]

/-- It belongs to none of the statements. -/
theorem Partitioned.push_blank {s : Script} (h : s.Partitioned) {t : Token}
    (ht : t.isBlank = true) : ({ s with tokens := s.tokens.push ⟨t, none⟩ } : Script).Partitioned := by
  have howned : ∀ id,
      ({ s with tokens := s.tokens.push ⟨t, none⟩ } : Script).owned id = s.owned id := by
    intro id
    simp [owned]
  have halone : ∀ id,
      ({ s with tokens := s.tokens.push ⟨t, none⟩ } : Script).alone id = s.alone id := by
    intro id
    rw [alone, howned]
    rfl
  refine ⟨?_, ?_, ?_, ?_, ?_⟩
  · intro u hu hnone
    simp only [Array.toList_push, List.mem_append, List.mem_singleton] at hu
    rcases hu with hu | rfl
    · exact h.untagged u hu hnone
    · exact ht
  · intro id
    have howner : ({ s with tokens := s.tokens.push ⟨t, none⟩ } : Script).owner? = s.owner? := rfl
    rw [howner]
    simpa using h.tags id
  · intro id
    obtain ⟨front, back, hsplit, hfront, hback⟩ := h.together id
    refine ⟨front, back ++ [⟨t, none⟩], ?_, hfront, ?_⟩
    · rw [howned, Array.toList_push, hsplit, List.append_assoc]
    · intro u hu o ho
      rcases List.mem_append.mp hu with hu | hu
      · exact hback u hu o ho
      · rw [List.mem_singleton.mp hu] at ho
        cases ho
  · intro i hi
    rw [halone]
    exact h.complete i hi
  · intro id hid
    rw [halone]
    exact h.unfinished id hid

/-- A script with a single statement, to which all its tokens belong. The statement is complete or
unfinished. -/
structure IsSingle (r : Script) : Prop where
  taken : empty.takeAll? r.plainTokens = some r
  owned : ∀ t ∈ r.tokens.toList, t.owner = some 0
  one : (r.isIncomplete = false ∧ ∃ i : Instruction, i.id = 0 ∧ r.instructions = #[i]) ∨
    (r.owner? = some 0 ∧ r.instructions = #[])

theorem IsSingle.exists_token {r : Script} (h : r.IsSingle) : ∃ t, t ∈ r.tokens.toList := by
  cases htokens : r.tokens.toList with
  | cons t tokens => exact ⟨t, List.mem_cons_self⟩
  | nil =>
    have htaken := h.taken
    have hnone : r.plainTokens = [] := by simp [plainTokens, htokens]
    rw [hnone, takeAll?_nil, Option.some.injEq] at htaken
    subst htaken
    rcases h.one with ⟨-, i, -, hi⟩ | ⟨howner, -⟩
    · simp [empty] at hi
    · cases howner

theorem IsSingle.error_eq {r : Script} (h : r.IsSingle) : r.error = none := by
  rw [← titled_of_takeAll? h.taken]
  rfl

/-- An unfinished statement goes on with every token that it takes. -/
theorem IsSingle.take? {r next : Script} {t : Token} (h : r.IsSingle) (hr : r.isIncomplete = true)
    (hnext : r.take? t = some next) : next.IsSingle := by
  have howner : r.owner? = some 0 ∧ r.instructions = #[] := by
    rcases h.one with ⟨hdone, -⟩ | hopen
    · rw [hdone] at hr
      cases hr
    · exact hopen
  have htaken : empty.takeAll? next.plainTokens = some next := by
    rw [plainTokens_of_take? hnext, takeAll?_append, h.taken, Option.bind_some]
    simpa using hnext
  obtain ⟨after, owner, hstepped, rfl⟩ := stepped_of_take? hnext
  obtain ⟨htag, hone⟩ := hstepped.owned howner.1
  refine ⟨htaken, ?_, ?_⟩
  · intro u hu
    simp only [Array.toList_push, List.mem_append, List.mem_singleton] at hu
    rcases hu with hu | rfl
    · exact h.owned u hu
    · exact htag
  · rcases hone with ⟨hstill, hsame⟩ | ⟨hdone, i, hi, hpush⟩
    · exact Or.inr ⟨hstill, hsame.trans howner.2⟩
    · refine Or.inl ⟨hdone, i, hi, ?_⟩
      rw [howner.2] at hpush
      exact hpush

/-- The first token of a statement begins it. -/
theorem isSingle_of_take? {r : Script} {t : Token} (h : empty.take? t = some r)
    (ht : t.isBlank = false) : r.IsSingle := by
  have htaken : empty.takeAll? r.plainTokens = some r := by
    rw [plainTokens_of_take? h]
    simpa [plainTokens, empty] using h
  obtain ⟨next, owner, hstepped, rfl⟩ := stepped_of_take? h
  cases hstepped with
  | idle _ hk => simp [Token.isBlank, hk] at ht
  | started command hc hk hl =>
    refine ⟨htaken, by simp [empty, owner?], ?_⟩
    have hnone : ({ empty with nextId := empty.nextId + 1 } : Script).current = none := rfl
    rcases owner?_settle hnone (.new empty.nextId command) with ⟨howner, hsame⟩ | ⟨-, hdone, hpush⟩
    · exact Or.inr ⟨howner, hsame⟩
    · exact Or.inl ⟨hdone, _, rfl, hpush⟩
  | closed block blocks _ ho => cases ho
  | ignored i hc => cases hc
  | bound i j hc => cases hc
  | opened i param hc => cases hc

/-! ## A part behind others -/

section Behind

variable {s r : Script}

/-- The tokens of a statement that is read behind a script all have the first id that the script
has not given out. -/
theorem IsSingle.exists_later (hr : r.IsSingle) (s : Script) :
    ∃ later : List TaggedToken, (s.andThen r).tokens.toList = s.tokens.toList ++ later ∧
      later.map (·.toToken) = r.plainTokens ∧ (∃ t, t ∈ later) ∧
      ∀ t ∈ later, t.owner = some s.nextId := by
  refine ⟨r.tokens.toList.map fun t => ⟨t.toToken, t.owner.map (· + s.nextId)⟩, ?_, ?_, ?_, ?_⟩
  · simp [andThen]
  · simp [plainTokens]
  · obtain ⟨t, ht⟩ := hr.exists_token
    exact ⟨_, List.mem_map_of_mem ht⟩
  · intro t ht
    obtain ⟨u, hu, rfl⟩ := List.mem_map.mp ht
    simp [hr.owned u hu]

theorem Numbered.owned_eq_nil (h : s.Numbered) {id : Nat} (hid : s.nextId ≤ id) :
    s.owned id = [] := by
  rw [owned, List.filter_eq_nil_iff]
  intro t ht htag
  have := h.tags t ht id (by simpa using htag)
  omega

/-- So they are found by this id. -/
theorem IsSingle.owned_andThen_self (hr : r.IsSingle) (hs : s.Numbered) :
    (s.andThen r).tokens.toList = s.tokens.toList ++ (s.andThen r).owned s.nextId ∧
      ((s.andThen r).owned s.nextId).map (·.toToken) = r.plainTokens := by
  obtain ⟨later, htokens, hplain, -, hlater⟩ := hr.exists_later s
  have hall : later.filter (·.owner = some s.nextId) = later := by
    rw [List.filter_eq_self]
    exact fun t ht => by simp [hlater t ht]
  have hmine : (s.andThen r).owned s.nextId = later := by
    rw [Script.owned, htokens, List.filter_append, hall]
    exact congrArg (· ++ later) (hs.owned_eq_nil (Nat.le_refl _))
  rw [hmine]
  exact ⟨htokens, hplain⟩

/-- The tokens of other statements are found as before. -/
theorem IsSingle.owned_andThen_of_ne (hr : r.IsSingle) {id : Nat} (hid : id ≠ s.nextId) :
    (s.andThen r).owned id = s.owned id := by
  obtain ⟨later, htokens, -, -, hlater⟩ := hr.exists_later s
  have hnone : later.filter (·.owner = some id) = [] := by
    rw [List.filter_eq_nil_iff]
    exact fun t ht => by simp [hlater t ht, Ne.symm hid]
  rw [Script.owned, htokens, List.filter_append, hnone, List.append_nil]
  rfl

theorem IsSingle.alone_andThen_self (hr : r.IsSingle) (hs : s.Numbered) :
    (s.andThen r).alone s.nextId = r := by
  rw [alone, (hr.owned_andThen_self hs).2, replay_of_takeAll? hr.taken]

theorem IsSingle.alone_andThen_of_ne (hr : r.IsSingle) {id : Nat} (hid : id ≠ s.nextId) :
    (s.andThen r).alone id = s.alone id := by
  rw [alone, hr.owned_andThen_of_ne hid]
  rfl

/-- The statement that is read behind a script is complete and comes last, or it is unfinished. -/
theorem IsSingle.statements_andThen (hr : r.IsSingle) (hdone : s.isIncomplete = false) :
    s.owner? = none ∧
      (((s.andThen r).owner? = none ∧ ∃ i : Instruction, i.id = s.nextId ∧
          (s.andThen r).instructions = s.instructions.push i ∧ r.isIncomplete = false ∧
          r.instructions.map (·.renumbered (· + s.nextId)) = #[i]) ∨
        (s.andThen r).owner? = some s.nextId ∧ (s.andThen r).instructions = s.instructions ∧
          r.instructions = #[]) := by
  refine ⟨owner?_eq_none hdone, ?_⟩
  rw [owner?_andThen]
  rcases hr.one with ⟨hcomplete, i, hi, hone⟩ | ⟨howner, hnone⟩
  · refine Or.inl ⟨by simp [owner?_eq_none hcomplete], i.renumbered (· + s.nextId), ?_, ?_,
      hcomplete, by simp [hone]⟩
    · simp [hi]
    · simp [andThen, hone]
  · exact Or.inr ⟨by simp [howner], by simp [andThen, hnone], hnone⟩

/-- Its tag is one more tag. -/
theorem Partitioned.tags_andThen (h : s.Partitioned) (hdone : s.isIncomplete = false)
    (hr : r.IsSingle) (id : Nat) :
    (∃ t ∈ (s.andThen r).tokens.toList, t.owner = some id) ↔
      (∃ i ∈ (s.andThen r).instructions.toList, i.id = id) ∨ (s.andThen r).owner? = some id := by
  obtain ⟨later, htokens, -, ⟨u, hu⟩, hlater⟩ := hr.exists_later s
  obtain ⟨hsettled, hone⟩ := hr.statements_andThen hdone
  have hbefore := h.tags id
  have hnew : (∃ t ∈ later, t.owner = some id) ↔ s.nextId = id := by
    constructor
    · rintro ⟨t, ht, ho⟩
      rwa [hlater t ht, Option.some.injEq] at ho
    · rintro rfl
      exact ⟨u, hu, hlater u hu⟩
  rw [hsettled] at hbefore
  simp only [reduceCtorEq, or_false] at hbefore
  rw [htokens]
  simp only [List.mem_append, or_and_right, exists_or, hbefore, hnew]
  rcases hone with ⟨howner, i, hi, hpush, -⟩ | ⟨howner, hsame, -⟩
  · simp [howner, hpush, or_and_right, exists_or, hi]
  · simp [howner, hsame]

/-- Its tokens come after all others. -/
theorem Partitioned.together_andThen (h : s.Partitioned) (hs : s.Numbered) (hr : r.IsSingle)
    (id : Nat) :
    ∃ front back, (s.andThen r).tokens.toList = front ++ (s.andThen r).owned id ++ back ∧
      (∀ t ∈ front, ∀ o, t.owner = some o → o < id) ∧
      ∀ t ∈ back, ∀ o, t.owner = some o → id < o := by
  obtain ⟨later, htokens, -, -, hlater⟩ := hr.exists_later s
  rcases Nat.lt_trichotomy id s.nextId with hlt | rfl | hgt
  · obtain ⟨front, back, hsplit, hfront, hback⟩ := h.together id
    refine ⟨front, back ++ later, ?_, hfront, ?_⟩
    · rw [htokens, hr.owned_andThen_of_ne (Nat.ne_of_lt hlt), hsplit, List.append_assoc]
    · intro t ht o ho
      rcases List.mem_append.mp ht with ht | ht
      · exact hback t ht o ho
      · rw [hlater t ht, Option.some.injEq] at ho
        omega
  · refine ⟨s.tokens.toList, [], ?_, hs.tags, by simp⟩
    rw [List.append_nil]
    exact (hr.owned_andThen_self hs).1
  · have hnone : (s.andThen r).owned id = [] := by
      rw [hr.owned_andThen_of_ne (Nat.ne_of_gt hgt)]
      exact hs.owned_eq_nil (Nat.le_of_lt hgt)
    refine ⟨s.tokens.toList ++ later, [], by rw [htokens, hnone]; simp, ?_, by simp⟩
    intro t ht o ho
    rcases List.mem_append.mp ht with ht | ht
    · have := hs.tags t ht o ho
      omega
    · rw [hlater t ht, Option.some.injEq] at ho
      omega

/-- A statement behind a script that is parted by its tags is one part more. -/
theorem Partitioned.andThen (h : s.Partitioned) (hdone : s.isIncomplete = false) (hs : s.Numbered)
    (hr : r.IsSingle) : (s.andThen r).Partitioned := by
  obtain ⟨-, hone⟩ := hr.statements_andThen hdone
  have hnew := hr.alone_andThen_self hs
  have hold : ∀ i ∈ s.instructions.toList, (s.andThen r).alone i.id = s.alone i.id := by
    intro i hi
    obtain ⟨t, ht, ho⟩ := (h.tags i.id).mpr (Or.inl ⟨i, hi, rfl⟩)
    exact hr.alone_andThen_of_ne (Nat.ne_of_lt (hs.tags t ht i.id ho))
  refine ⟨?_, h.tags_andThen hdone hr, h.together_andThen hs hr, ?_, ?_⟩
  · intro t ht hnone
    obtain ⟨later, htokens, -, -, hlater⟩ := hr.exists_later s
    rw [htokens] at ht
    rcases List.mem_append.mp ht with ht | ht
    · exact h.untagged t ht hnone
    · rw [hlater t ht] at hnone
      cases hnone
  · intro i hi
    rcases hone with ⟨-, j, hj, hpush, hcomplete, hmade⟩ | ⟨-, hsame, -⟩
    · rw [hpush, Array.toList_push, List.mem_append, List.mem_singleton] at hi
      rcases hi with hi | rfl
      · rw [hold i hi]
        exact h.complete i hi
      · rw [hj, hnew]
        exact ⟨hr.error_eq, hcomplete, hmade⟩
    · rw [hsame] at hi
      rw [hold i hi]
      exact h.complete i hi
  · intro id hid
    rcases hone with ⟨howner, -⟩ | ⟨howner, -, hnone⟩
    · rw [howner] at hid
      cases hid
    · obtain rfl : s.nextId = id := by simpa [howner] using hid
      rw [hnew]
      exact ⟨hr.error_eq, hnone, rfl, rfl⟩

end Behind

/-! ## All tokens -/

/-- A script is parted by its tags so far: all its statements are complete, or the last one is
unfinished and stands behind complete ones. -/
inductive PartedSoFar : Script → Prop
  | settled {s : Script} : s.Partitioned → s.isIncomplete = false → s.Numbered → PartedSoFar s
  | waiting {s r : Script} : s.Partitioned → s.isIncomplete = false → s.Numbered → r.IsSingle →
      r.isIncomplete = true → PartedSoFar (s.andThen r)

theorem PartedSoFar.partitioned {s : Script} (h : s.PartedSoFar) : s.Partitioned := by
  cases h with
  | settled hparts => exact hparts
  | waiting hparts hdone hs hr => exact hparts.andThen hdone hs hr

/-- A statement behind a script is complete, or it waits. -/
theorem partedSoFar_andThen {s r : Script} (h : s.Partitioned) (hdone : s.isIncomplete = false)
    (hs : s.Numbered) (hr : r.IsSingle) (hnext : (s.andThen r).Numbered) :
    (s.andThen r).PartedSoFar := by
  cases hwaits : r.isIncomplete with
  | false => exact .settled (h.andThen hdone hs hr) (by simpa using hwaits) hnext
  | true => exact .waiting h hdone hs hr hwaits

theorem PartedSoFar.take? {s next : Script} {t : Token} (h : s.PartedSoFar)
    (hnumbered : next.Numbered) (hnext : s.take? t = some next) : next.PartedSoFar := by
  cases h with
  | settled hparts hdone hs =>
    cases hblank : t.isBlank with
    | true =>
      rw [take?_blank hdone hblank, Option.some.injEq] at hnext
      subst hnext
      exact .settled (hparts.push_blank hblank) hdone hnumbered
    | false =>
      -- the token begins a statement, and does so as it would in the empty script
      rw [← andThen_empty hdone, take?_andThen, Option.map_eq_some_iff] at hnext
      obtain ⟨r, hr, rfl⟩ := hnext
      exact partedSoFar_andThen hparts hdone hs (isSingle_of_take? hr hblank) hnumbered
  | waiting hparts hdone hs hr hwaits =>
    rw [take?_andThen, Option.map_eq_some_iff] at hnext
    obtain ⟨q, hq, rfl⟩ := hnext
    exact partedSoFar_andThen hparts hdone hs (hr.take? hwaits hq) hnumbered

theorem PartedSoFar.takeAll? {s r : Script} {tokens : List Token} (h : s.PartedSoFar)
    (hs : s.Numbered) (hr : s.takeAll? tokens = some r) : r.PartedSoFar := by
  induction hr using takeAll?_induction with
  | nil => exact h
  | cons hnext _ ih =>
    have hnumbered := hs.take? hnext
    exact ih (h.take? hnumbered hnext) hnumbered

/-! ## The law of tags -/

/-- In every script that a store can hold the tags part the tokens into the statements, however
the lines of its user cut them. White space between statements has no tag; the tokens of a
statement stand together, in the order of the ids; and they make the statement on their own. -/
theorem tags_part_the_tokens (actions : List Action) (s : Script)
    (h : s ∈ (Store.after actions).script.entries) : s.Partitioned := by
  have hempty : empty.PartedSoFar := .settled partitioned_empty rfl numbered_empty
  have hbare := (hempty.takeAll? numbered_empty (Store.faithful_of_mem_entries h).rebuilt).partitioned
  exact ⟨hbare.untagged, hbare.tags, hbare.together, hbare.complete, hbare.unfinished⟩

/-- A loop in a loop, and then a loop that waits for more after two lines; a line is refused
between them. -/
def spreadActions : List Action :=
  [.submit "fd 7 rp 2 [ pu rp 3 [ rt 90 ] ]", .submit "\n", .submit "turn", .submit "rp 4 [ pd",
    .submit " bk"]

theorem spread_tokens_are_parted :
    (Store.after spreadActions).present ∈ (Store.after spreadActions).script.entries ∧
    ((Store.after spreadActions).present.owned 5).map (·.text) =
      ["rp", " ", "4", " ", "[", " ", "pd", " ", "bk"] ∧
    ((Store.after spreadActions).present.alone 5).error = none ∧
    ((Store.after spreadActions).present.alone 5).instructions = #[] ∧
    (((Store.after spreadActions).present.alone 5).current.map (·.renumbered (· + 5))).map (·.id) =
      some 7 := by
  have hmem := (Store.after spreadActions).present_mem_entries
  have hstate : (Store.after spreadActions).present.owner? = some 5 ∧
      (Store.after spreadActions).present.current.map (·.id) = some 7 ∧
      ((Store.after spreadActions).present.owned 5).map (·.text) =
        ["rp", " ", "4", " ", "[", " ", "pd", " ", "bk"] := by decide +kernel
  obtain ⟨howner, hcurrent, htexts⟩ := hstate
  have hparts := tags_part_the_tokens spreadActions _ hmem
  obtain ⟨herror, hnone, hmade, -⟩ := hparts.unfinished 5 howner
  exact ⟨hmem, htexts, herror, hnone, by rw [hmade, hcurrent]⟩

end Script

end TurtleScript
