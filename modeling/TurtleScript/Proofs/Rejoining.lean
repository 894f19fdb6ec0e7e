-- The text of a script. Its lines, or its submissions, joined one after the
-- other are the texts that were accepted, and every token stands on the line
-- that the newlines before it say.
import TurtleScript.Proofs.Rebuilding
import TurtleScript.Proofs.Splitting

namespace TurtleScript

/-! ## Tokens in a row -/

@[simp] theorem joined_nil : joined [] = "" := rfl

theorem joined_append (xs ys : List String) : joined (xs ++ ys) = joined xs ++ joined ys := by
  induction xs with
  | nil => simp
  | cons x xs ih => rw [List.cons_append, joined_cons, joined_cons, ih, String.append_assoc]

theorem textOf_append (xs ys : List Token) : textOf (xs ++ ys) = textOf xs ++ textOf ys := by
  rw [textOf, List.map_append, joined_append]
  rfl

/-- The tokens of a text are the whole text. -/
theorem textOf_lex (text : String) (line : Nat) : textOf (lex text line).tokens = text :=
  ((splits_iff line text _).mpr rfl).whole

theorem InRow.lineAfter_eq {line : Nat} {tokens : List Token} (h : InRow line tokens) :
    lineAfter line tokens = line + lineBreaks (textOf tokens) := by
  induction tokens generalizing line with
  | nil => rfl
  | cons t tokens ih =>
    obtain ⟨rfl, -, hrest⟩ := h
    have hnext : lineAfter t.line (t :: tokens) = lineAfter t.endLine tokens := rfl
    rw [hnext, ih hrest, textOf_cons, lineBreaks_append, Token.endLine, Nat.add_assoc]

/-- A token in a row stands on the line that the newlines before it say. -/
theorem InRow.line_eq {line : Nat} {before after : List Token} {t : Token}
    (h : InRow line (before ++ t :: after)) : t.line = line + lineBreaks (textOf before) := by
  rw [inRow_append] at h
  rw [h.2.1, h.1.lineAfter_eq]

/-! ## Lines -/

theorem joined_prepend (t : TaggedToken) (lines : List SourceLine) :
    joined ((SourceLine.prepend t lines).map (·.text)) = t.text ++ joined (lines.map (·.text)) := by
  cases lines with
  | nil => simp [SourceLine.prepend, joined_cons]
  | cons l lines =>
    rw [SourceLine.prepend]
    split
    · rw [List.map_cons, joined_cons, List.map_cons, joined_cons, String.append_assoc]
    · rw [List.map_cons, joined_cons]

theorem joined_sourceLines (tokens : List TaggedToken) :
    joined ((sourceLines tokens).map (·.text)) = textOf (tokens.map (·.toToken)) := by
  induction tokens with
  | nil => rfl
  | cons t tokens ih =>
    have hlines : sourceLines (t :: tokens) = SourceLine.prepend t (sourceLines tokens) := rfl
    rw [hlines, joined_prepend, ih, List.map_cons, textOf_cons]

/-- The first line has the number of its first token. -/
theorem head?_prepend (t : TaggedToken) (lines : List SourceLine) :
    (SourceLine.prepend t lines).head?.map (·.number) = some t.line := by
  cases lines with
  | nil => rfl
  | cons l lines =>
    rw [SourceLine.prepend]
    split <;> rfl

/-- Lines of tokens in a row are numbered upwards. -/
theorem isChain_sourceLines {line : Nat} {tokens : List TaggedToken}
    (h : InRow line (tokens.map (·.toToken))) :
    ((sourceLines tokens).map (·.number)).IsChain (· < ·) := by
  induction tokens generalizing line with
  | nil => exact List.isChain_nil
  | cons t tokens ih =>
    obtain ⟨-, -, hrest⟩ := h
    have hlines : sourceLines (t :: tokens) = SourceLine.prepend t (sourceLines tokens) := rfl
    have hchain := ih hrest
    rw [hlines]
    cases hl : sourceLines tokens with
    | nil => exact List.isChain_singleton _
    | cons l lines =>
      rw [hl] at hchain
      have hle : t.line ≤ l.number := by
        cases tokens with
        | nil => cases hl
        | cons u tokens =>
          have hhead := head?_prepend u (sourceLines tokens)
          have hu : sourceLines (u :: tokens) = SourceLine.prepend u (sourceLines tokens) := rfl
          rw [← hu, hl, List.head?_cons, Option.map_some, Option.some.injEq] at hhead
          rw [hhead, hrest.1]
          exact Nat.le_add_right _ _
      rw [SourceLine.prepend]
      split
      · next heq =>
        rw [List.map_cons, heq] at hchain
        exact hchain
      · next hne =>
        rw [List.map_cons, List.map_cons, List.isChain_cons_cons]
        exact ⟨Nat.lt_of_le_of_ne hle (Ne.symm hne), hchain⟩

/-! ## Submissions -/

theorem joined_submissions (tokens : List TaggedToken) :
    joined (submissions tokens) = textOf (tokens.map (·.toToken)) := by
  induction tokens with
  | nil => rfl
  | cons t tokens ih =>
    rw [List.map_cons, textOf_cons, ← ih]
    cases tokens with
    | nil => simp [submissions, joined_cons]
    | cons u tokens =>
      rw [submissions]
      cases submissions (u :: tokens) with
      | nil => simp [joined_cons]
      | cons text texts =>
        simp only
        split
        · rw [joined_cons, joined_cons, String.append_assoc]
        · rw [joined_cons]

/-! ## Accepted texts -/

/-- The texts among some that are accepted when all are submitted in order. -/
def Script.accepted (s : Script) : List String → List String
  | [] => []
  | text :: texts =>
    let next := s.submit text
    if next.error = none then text :: next.accepted texts else next.accepted texts

theorem Script.textOf_submit (s : Script) (text : String) :
    textOf (s.submit text).plainTokens =
      if (s.submit text).error = none then textOf s.plainTokens ++ text else textOf s.plainTokens := by
  cases hr : s.submitted? text with
  | none =>
    obtain ⟨e, he⟩ := submit_of_none hr
    rw [he]
    rfl
  | some r =>
    have haccepted : (s.submit text).error = none := by
      rw [error_submit_eq_none_iff, hr]
      rfl
    rw [if_pos haccepted, submit_of_some hr, plainTokens_of_takeAll? hr, textOf_append, textOf_lex]
    rfl

theorem Script.textOf_foldl_submit (texts : List String) (s : Script) :
    textOf (texts.foldl submit s).plainTokens = textOf s.plainTokens ++ joined (s.accepted texts) := by
  induction texts generalizing s with
  | nil => simp [accepted]
  | cons text texts ih =>
    rw [List.foldl_cons, ih, textOf_submit, accepted]
    split
    · rw [joined_cons, String.append_assoc]
    · rfl

theorem Script.Faithful.foldl_submit_texts {s : Script} (h : s.Faithful) (texts : List String) :
    (texts.foldl Script.submit s).Faithful := by
  induction texts generalizing s with
  | nil => exact h
  | cons text texts ih => exact ih (h.submit text)

/-- The accepted texts, joined in order, are the source of a script: its lines joined give the
source again, and so do its submissions. Every token stands on the line that the newlines before it
in the source say, the lines are numbered upwards, and the next text goes on where the source
ends. -/
theorem source_is_reproduced (texts : List String) :
    let s := texts.foldl Script.submit .empty
    let source := joined (Script.empty.accepted texts)
    joined ((sourceLines s.tokens.toList).map (·.text)) = source ∧
    joined (submissions s.tokens.toList) = source ∧
    (∀ before t after, s.tokens.toList = before ++ t :: after →
      source = joined (before.map (·.text)) ++ t.text ++ joined (after.map (·.text)) ∧
      t.line = 1 + lineBreaks (joined (before.map (·.text)))) ∧
    ((sourceLines s.tokens.toList).map (·.number)).Pairwise (· < ·) ∧
    s.nextLine = 1 + lineBreaks source := by
  intro s source
  have hs : s.Faithful := Script.faithful_empty.foldl_submit_texts texts
  have hsource : textOf s.plainTokens = source := Script.textOf_foldl_submit texts .empty
  refine ⟨(joined_sourceLines _).trans hsource, (joined_submissions _).trans hsource, ?_, ?_, ?_⟩
  · intro before t after htokens
    have hplain : s.plainTokens =
        before.map (·.toToken) ++ t.toToken :: after.map (·.toToken) := by
      rw [Script.plainTokens, htokens, List.map_append, List.map_cons]
    have htext : ∀ tokens : List TaggedToken,
        textOf (tokens.map (·.toToken)) = joined (tokens.map (·.text)) := by
      intro tokens
      rw [textOf, List.map_map]
      rfl
    have hrow := hs.inRow
    rw [hplain] at hrow
    rw [← hsource, hplain, textOf_append, textOf_cons, htext, htext, String.append_assoc, ← htext]
    exact ⟨rfl, hrow.line_eq⟩
  · exact List.isChain_iff_pairwise.mp (isChain_sourceLines hs.inRow)
  · rw [Script.nextLine_eq, hs.inRow.lineAfter_eq, hsource]

/-- Lines that cut white space and let words touch, with a blank line, one that is refused and one
that stays open. -/
def unevenTexts : List String := ["fd 7\n\n", "  rp 2 [", "rt x\n", "\r\n\n rt", "\t90]\n", "pu", "fd"]

theorem uneven_source_is_reproduced :
    let s := unevenTexts.foldl Script.submit .empty
    let source := "fd 7\n\n  rp 2 [\r\n\n rt\t90]\npufd"
    s.tokens.toList =
      s.tokens.toList.take 13 ++ ⟨⟨.number, "90", 5⟩, some 1⟩ :: s.tokens.toList.drop 14 ∧
    joined (Script.empty.accepted unevenTexts) = source ∧
    5 = 1 + lineBreaks (joined ((s.tokens.toList.take 13).map (·.text))) ∧
    joined ((sourceLines s.tokens.toList).map (·.text)) = source ∧
    joined (submissions s.tokens.toList) = source ∧ s.nextLine = 1 + lineBreaks source := by
  intro s source
  have htokens : s.tokens.toList =
      s.tokens.toList.take 13 ++ ⟨⟨.number, "90", 5⟩, some 1⟩ :: s.tokens.toList.drop 14 := by
    decide +kernel
  have hsource : joined (Script.empty.accepted unevenTexts) = source := by decide +kernel
  obtain ⟨hlines, hsubmissions, htoken, -, hnext⟩ := source_is_reproduced unevenTexts
  rw [hsource] at hlines hsubmissions hnext
  exact ⟨htokens, hsource, (htoken _ _ _ htokens).2, hlines, hsubmissions, hnext⟩

end TurtleScript
