-- Taking tokens one after another. The parser does not look at the tokens
-- taken so far, nor at the error or the name, so what a token does to the
-- rest of a script is the same whatever these are. A submission is the taking
-- of all its tokens, or nothing but an error.
import TurtleScript.Parser

namespace TurtleScript.Script

/-! ## Accepted tokens -/

/-- The script after a token, if the token is accepted. -/
def take? (s : Script) (t : Token) : Option Script :=
  match s.step t with
  | .ok (next, owner) => some { next with tokens := next.tokens.push ⟨t, owner⟩ }
  | .error _ => none

def takeAll? (s : Script) (tokens : List Token) : Option Script := tokens.foldlM take? s

/-- The tokens of a script without their tags. -/
def plainTokens (s : Script) : List Token := s.tokens.toList.map (·.toToken)

@[simp] theorem takeAll?_nil (s : Script) : s.takeAll? [] = some s := rfl

@[simp] theorem takeAll?_cons (s : Script) (t : Token) (tokens : List Token) :
    s.takeAll? (t :: tokens) = (s.take? t).bind (takeAll? · tokens) := rfl

/-- Induction on tokens that are all accepted, from the script that they make. -/
theorem takeAll?_induction {r : Script}
    {motive : (s : Script) → (tokens : List Token) → s.takeAll? tokens = some r → Prop}
    (nil : motive r [] rfl)
    (cons : ∀ {s next : Script} {t : Token} {tokens : List Token} (hnext : s.take? t = some next)
      (h : next.takeAll? tokens = some r), motive next tokens h →
        motive s (t :: tokens) (by rw [takeAll?_cons, hnext]; exact h))
    {s : Script} {tokens : List Token} (h : s.takeAll? tokens = some r) : motive s tokens h := by
  induction tokens generalizing s with
  | nil =>
    simp only [takeAll?_nil, Option.some.injEq] at h
    subst h
    exact nil
  | cons t tokens ih =>
    have hsteps := h
    rw [takeAll?_cons, Option.bind_eq_some_iff] at hsteps
    obtain ⟨next, hnext, hr⟩ := hsteps
    exact cons hnext hr (ih hr)

theorem takeAll?_append (s : Script) (xs ys : List Token) :
    s.takeAll? (xs ++ ys) = (s.takeAll? xs).bind (takeAll? · ys) := by
  simp [takeAll?, List.foldlM_append]

/-! ## What the parser does not look at -/

/-- The script with other tokens, another error and another name. -/
def dress (s : Script) (tokens : Array TaggedToken) (error : Option String) (name : String) :
    Script :=
  { s with tokens, error, name }

/-- The script with another error and another name. -/
def titled (s : Script) (error : Option String) (name : String) : Script := { s with error, name }

/-- The script as it would be without a name or an error. -/
def bare (s : Script) : Script := s.titled none defaultName

section Dress

variable (s : Script) (tokens : Array TaggedToken) (error : Option String) (name : String)

theorem settle_dress (i : Instruction) :
    (s.dress tokens error name).settle i = (s.settle i).dress tokens error name := by
  obtain ⟨current, openBlocks, _⟩ := s
  unfold settle dress
  by_cases hi : i.isComplete = false
  · simp only [hi, if_true]
  · simp only [hi, Bool.true_eq_false, if_false]
    cases openBlocks <;> rfl

theorem closeBlock_dress :
    (s.dress tokens error name).closeBlock = s.closeBlock.dress tokens error name := by
  obtain ⟨current, openBlocks, instructions, taken, nextId, drawing, before, title⟩ := s
  cases openBlocks with
  | nil => rfl
  | cons block blocks => exact settle_dress ⟨current, blocks, _, _, _, _, _, _⟩ _ _ _ _

theorem stepOutside_dress (t : Token) :
    (s.dress tokens error name).stepOutside t =
      (s.stepOutside t).map fun p => (p.1.dress tokens error name, p.2) := by
  unfold stepOutside
  cases t.kind with
  | whitespace => rfl
  | bracketOpen => rfl
  | bracketClose =>
    simp only
    rw [closeBlock_dress]
    have h : (s.dress tokens error name).openBlocks = s.openBlocks := rfl
    rw [h]
    split <;> rfl
  | word | number =>
    simp only
    cases Command.lookup? t.text with
    | none => rfl
    | some command =>
      exact congrArg (fun r => Except.ok (r, some s.nextId))
        (settle_dress { s with nextId := s.nextId + 1 } tokens error name _)

theorem stepInside_dress (i : Instruction) (t : Token) :
    (s.dress tokens error name).stepInside i t =
      (s.stepInside i t).map (·.dress tokens error name) := by
  unfold stepInside
  simp only
  cases i.feed t with
  | error fault => rfl
  | ok fed =>
    cases fed with
    | ignored => exact congrArg Except.ok (settle_dress { s with current := none } tokens error name i)
    | bound j => exact congrArg Except.ok (settle_dress { s with current := none } tokens error name j)
    | opens param => rfl

/-- A token does the same to a script whatever its tokens, its error and its name are. -/
theorem step_dress (t : Token) :
    (s.dress tokens error name).step t =
      (s.step t).map fun p => (p.1.dress tokens error name, p.2) := by
  have howner : (s.dress tokens error name).owner? = s.owner? := rfl
  have hcurrent : (s.dress tokens error name).current = s.current := rfl
  unfold step
  rw [howner, hcurrent]
  cases s.current with
  | none =>
    simp only
    rw [stepOutside_dress]
    cases s.stepOutside t <;> rfl
  | some i =>
    simp only
    rw [stepInside_dress]
    cases s.stepInside i t <;> rfl

end Dress

/-- A step leaves the tokens, the error and the name to those who record it. -/
theorem dress_of_step {s next : Script} {t : Token} {owner : Option Nat}
    (h : s.step t = .ok (next, owner)) : next = next.dress s.tokens s.error s.name := by
  have hs := step_dress s s.tokens s.error s.name t
  have hself : s.dress s.tokens s.error s.name = s := rfl
  rw [hself, h] at hs
  exact congrArg Prod.fst (Except.ok.inj hs)

theorem tokens_of_step {s next : Script} {t : Token} {owner : Option Nat}
    (h : s.step t = .ok (next, owner)) : next.tokens = s.tokens := by
  rw [dress_of_step h]
  rfl

/-! ## Titles -/

@[simp] theorem plainTokens_titled (s : Script) (e : Option String) (n : String) :
    (s.titled e n).plainTokens = s.plainTokens := rfl

theorem take?_titled (s : Script) (e : Option String) (n : String) (t : Token) :
    (s.titled e n).take? t = (s.take? t).map (·.titled e n) := by
  have hs : s.titled e n = s.dress s.tokens e n := rfl
  unfold take?
  rw [hs, step_dress]
  cases hstep : s.step t with
  | error fault => rfl
  | ok p =>
    obtain ⟨next, owner⟩ := p
    simp [Except.map, dress, titled, tokens_of_step hstep]

theorem takeAll?_titled (s : Script) (e : Option String) (n : String) (tokens : List Token) :
    (s.titled e n).takeAll? tokens = (s.takeAll? tokens).map (·.titled e n) := by
  induction tokens generalizing s with
  | nil => rfl
  | cons t tokens ih =>
    rw [takeAll?_cons, takeAll?_cons, take?_titled]
    cases s.take? t with
    | none => rfl
    | some next => exact ih next

/-- Accepted tokens change neither the error nor the name. -/
theorem titled_of_takeAll? {s r : Script} {tokens : List Token} (h : s.takeAll? tokens = some r) :
    r.titled s.error s.name = r := by
  have hs := takeAll?_titled s s.error s.name tokens
  have hself : s.titled s.error s.name = s := rfl
  rw [hself, h] at hs
  exact (Option.some.inj hs).symm

theorem error_of_take? {s r : Script} {t : Token} (h : s.take? t = some r) : r.error = s.error := by
  have hone : s.takeAll? [t] = some r := by simpa using h
  rw [← titled_of_takeAll? hone]
  rfl

theorem plainTokens_of_take? {s r : Script} {t : Token} (h : s.take? t = some r) :
    r.plainTokens = s.plainTokens ++ [t] := by
  unfold take? at h
  cases hstep : s.step t with
  | error fault => simp [hstep] at h
  | ok p =>
    obtain ⟨next, owner⟩ := p
    simp only [hstep, Option.some.injEq] at h
    subst h
    simp [plainTokens, tokens_of_step hstep]

/-- Accepted tokens are recorded in order. -/
theorem plainTokens_of_takeAll? {s r : Script} {tokens : List Token}
    (h : s.takeAll? tokens = some r) : r.plainTokens = s.plainTokens ++ tokens := by
  induction h using takeAll?_induction with
  | nil => simp
  | cons hnext _ ih =>
    rw [ih, plainTokens_of_take? hnext, List.append_assoc]
    rfl

/-! ## Submissions and replays -/

theorem accept_of_take? {s r : Script} {t : Token} (h : s.take? t = some r) : s.accept t = r := by
  unfold take? at h
  unfold accept
  cases hstep : s.step t with
  | error fault => simp [hstep] at h
  | ok p =>
    simp only [hstep, Option.some.injEq] at h
    exact h

theorem error_accept_of_take? {s : Script} {t : Token} (h : s.take? t = none) :
    (s.accept t).error.isSome = true := by
  unfold take? at h
  unfold accept
  cases hstep : s.step t with
  | error fault => rfl
  | ok p => simp [hstep] at h

/-- Tokens that are all accepted make the same script when it is rebuilt from them. -/
theorem replay_of_takeAll? {s r : Script} {tokens : List Token} (h : s.takeAll? tokens = some r) :
    s.replay tokens = r := by
  induction h using takeAll?_induction with
  | nil => rfl
  | @cons s next t tokens hnext _ ih =>
    have : s.replay (t :: tokens) = (s.accept t).replay tokens := rfl
    rw [this, accept_of_take? hnext]
    exact ih

theorem error_replay_of_isSome {s : Script} (h : s.error.isSome = true) (tokens : List Token) :
    (s.replay tokens).error.isSome = true := by
  induction tokens generalizing s with
  | nil => exact h
  | cons t tokens ih =>
    apply ih
    cases hr : s.take? t with
    | none => exact error_accept_of_take? hr
    | some r =>
      rw [accept_of_take? hr, error_of_take? hr]
      exact h

/-- An error is never taken back, so a script without one has had all its tokens accepted. -/
theorem error_replay_eq_none_iff {s : Script} (hs : s.error = none) (tokens : List Token) :
    (s.replay tokens).error = none ↔ (s.takeAll? tokens).isSome = true := by
  induction tokens generalizing s with
  | nil => simp [replay, hs]
  | cons t tokens ih =>
    have hreplay : s.replay (t :: tokens) = (s.accept t).replay tokens := rfl
    rw [hreplay, takeAll?_cons]
    cases hr : s.take? t with
    | none =>
      have herror := error_replay_of_isSome (error_accept_of_take? hr) tokens
      simp only [Option.bind_none, Option.isSome_none, Bool.false_eq_true, iff_false]
      intro hnone
      rw [hnone] at herror
      cases herror
    | some r =>
      rw [accept_of_take? hr]
      exact ih (by rw [error_of_take? hr, hs])

theorem acceptAll_of_takeAll? {before s r : Script} {tokens : List Token} (hs : s.error = none)
    (h : s.takeAll? tokens = some r) : acceptAll before s tokens = r := by
  induction h using takeAll?_induction with
  | nil => rfl
  | cons hnext _ ih =>
    have herror := (error_of_take? hnext).trans hs
    rw [acceptAll, accept_of_take? hnext]
    simp only [herror, Option.isSome_none, Bool.false_eq_true, if_false]
    exact ih herror

theorem acceptAll_of_refused {before s : Script} {tokens : List Token} (hs : s.error = none)
    (h : s.takeAll? tokens = none) :
    ∃ e, acceptAll before s tokens = { before with error := some e } := by
  induction tokens generalizing s with
  | nil => simp at h
  | cons t tokens ih =>
    rw [acceptAll]
    cases hnext : s.take? t with
    | none =>
      obtain ⟨e, he⟩ := Option.isSome_iff_exists.mp (error_accept_of_take? hnext)
      exact ⟨e, by simp [he]⟩
    | some next =>
      have herror : next.error = none := by
        rw [error_of_take? hnext]
        exact hs
      rw [takeAll?_cons, hnext] at h
      rw [accept_of_take? hnext]
      simp only [herror, Option.isSome_none, Bool.false_eq_true, if_false]
      exact ih herror h

/-- What a submission of a script has to take. -/
def submitted? (s : Script) (text : String) : Option Script :=
  (s.titled none s.name).takeAll? (lex text s.nextLine).tokens

theorem submit_of_some {s r : Script} {text : String} (h : s.submitted? text = some r) :
    s.submit text = r := acceptAll_of_takeAll? rfl h

theorem submit_of_none {s : Script} {text : String} (h : s.submitted? text = none) :
    ∃ e, s.submit text = s.titled (some e) s.name := acceptAll_of_refused rfl h

/-- A submission is accepted exactly if all its tokens are. -/
theorem error_submit_eq_none_iff (s : Script) (text : String) :
    (s.submit text).error = none ↔ (s.submitted? text).isSome = true := by
  cases h : s.submitted? text with
  | none =>
    obtain ⟨e, he⟩ := submit_of_none h
    simp [he, titled]
  | some r =>
    have hr := congrArg error (titled_of_takeAll? h)
    rw [submit_of_some h, ← hr]
    simp [titled]

/-! ## What submissions do apart from the title -/

/-- A submission does the same to scripts that differ only in name and error. -/
theorem bare_submit (s : Script) (text : String) : (s.submit text).bare = (s.bare.submit text).bare := by
  have hbare : s.bare.submitted? text = (s.submitted? text).map (·.titled none defaultName) :=
    takeAll?_titled (s.titled none s.name) none defaultName _
  cases h : s.submitted? text with
  | none =>
    rw [h] at hbare
    obtain ⟨e, he⟩ := submit_of_none h
    obtain ⟨f, hf⟩ := submit_of_none hbare
    rw [he, hf]
    rfl
  | some r =>
    rw [h] at hbare
    rw [submit_of_some h, submit_of_some hbare]
    rfl

end TurtleScript.Script
