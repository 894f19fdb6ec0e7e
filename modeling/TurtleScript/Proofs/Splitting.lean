-- The one way to split a text into tokens. Tokens that are well-formed, that
-- give the text again when they are joined, and none of which could go on into
-- the next one are the tokens that reading gives; there is no other choice.
import Mathlib.Data.List.Chain
import TurtleScript.Proofs.Joining
import TurtleScript.Text.Split

namespace TurtleScript

/-! ## Splits of a text -/

/-- Digits, at least one of them. -/
def IsWhole (cs : List Char) : Prop := cs ≠ [] ∧ ∀ c ∈ cs, Decimal.isDigit c = true

/-- Digits, and after a point more digits or nothing. -/
def IsNumeral (cs : List Char) : Prop :=
  IsWhole cs ∨ ∃ ds es, IsWhole ds ∧ IsWhole es ∧ cs = ds ++ '.' :: es

/-- A point and a digit, whatever comes after them. -/
def BeginsFraction (cs : List Char) : Prop :=
  ∃ d ds, cs = '.' :: d :: ds ∧ Decimal.isDigit d = true

/-- The characters that a token of a kind is made of. -/
def TokenKind.Shapes (k : TokenKind) (cs : List Char) : Prop :=
  match k with
  | .bracketOpen => cs = ['[']
  | .bracketClose => cs = [']']
  | .whitespace => ∀ c ∈ cs, isBlank c = true
  | .number => IsNumeral cs
  | .word => (∀ c ∈ cs, isWordChar c = true) ∧ ∀ c ∈ cs.head?, Decimal.isDigit c = false

/-- A token could not go on into the one after it. -/
def Token.StopsBefore (t u : Token) : Prop :=
  match t.kind with
  | .bracketOpen | .bracketClose => True
  | .whitespace => u.kind ≠ .whitespace
  | .number => u.kind ≠ .number ∧
      (IsWhole t.text.toList → u.kind = .word → ¬ BeginsFraction u.text.toList)
  | .word => u.kind ≠ .word ∧ u.kind ≠ .number

def textOf (tokens : List Token) : String := joined (tokens.map (·.text))

/-- A split of a text whose first character stands on `line`: tokens that are the text when they
are joined, each of them well-formed, on the line where its text begins and without a part of what
comes next. -/
structure Splits (line : Nat) (text : String) (tokens : List Token) : Prop where
  whole : textOf tokens = text
  nonempty : ∀ t ∈ tokens, t.text ≠ ""
  shaped : ∀ t ∈ tokens, t.kind.Shapes t.text.toList
  stops : tokens.IsChain Token.StopsBefore
  lines : ∀ before t after, tokens = before ++ t :: after →
    t.line = line + lineBreaks (textOf before)

/-! ## One token after the other -/

theorem joined_cons (text : String) (texts : List String) :
    joined (text :: texts) = text ++ joined texts := by
  have hfront : ∀ (texts : List String) (front : String),
      texts.foldl (· ++ ·) front = front ++ texts.foldl (· ++ ·) "" := by
    intro texts
    induction texts with
    | nil => simp
    | cons text texts ih =>
      intro front
      rw [List.foldl_cons, List.foldl_cons, ih (front ++ text), ih ("" ++ text), String.empty_append,
        String.append_assoc]
  unfold joined
  rw [List.foldl_cons, hfront, String.empty_append]

theorem textOf_cons (t : Token) (tokens : List Token) :
    textOf (t :: tokens) = t.text ++ textOf tokens := joined_cons _ _

theorem splits_nil_iff (line : Nat) (text : String) : Splits line text [] ↔ text = "" := by
  constructor
  · exact fun h => h.whole.symm
  · rintro rfl
    exact ⟨rfl, by simp, by simp, List.isChain_nil, by simp⟩

theorem splits_cons_iff (line : Nat) (text : String) (t : Token) (tokens : List Token) :
    Splits line text (t :: tokens) ↔
      ∃ rest, text = t.text ++ rest ∧ t.line = line ∧ t.text ≠ "" ∧ t.kind.Shapes t.text.toList ∧
        (∀ u ∈ tokens.head?, t.StopsBefore u) ∧ Splits t.endLine rest tokens := by
  constructor
  · intro h
    have hline : t.line = line := h.lines [] t tokens rfl
    refine ⟨textOf tokens, by rw [← textOf_cons, h.whole], hline, h.nonempty t List.mem_cons_self,
      h.shaped t List.mem_cons_self, (List.isChain_cons.mp h.stops).1, rfl,
      fun u hu => h.nonempty u (List.mem_cons_of_mem _ hu),
      fun u hu => h.shaped u (List.mem_cons_of_mem _ hu), (List.isChain_cons.mp h.stops).2, ?_⟩
    intro before u after htokens
    rw [h.lines (t :: before) u after (by rw [htokens, List.cons_append]), textOf_cons,
      lineBreaks_append, ← hline, Token.endLine, Nat.add_assoc]
  · rintro ⟨rest, rfl, hline, hne, hshaped, hstops, h⟩
    refine ⟨by rw [textOf_cons, h.whole], ?_, ?_, List.isChain_cons.mpr ⟨hstops, h.stops⟩, ?_⟩
    · exact List.forall_mem_cons.mpr ⟨hne, h.nonempty⟩
    · exact List.forall_mem_cons.mpr ⟨hshaped, h.shaped⟩
    · intro before u after htokens
      cases before with
      | nil =>
        rw [List.nil_append, List.cons.injEq] at htokens
        rw [← htokens.1, hline]
        rfl
      | cons v before =>
        rw [List.cons_append, List.cons.injEq] at htokens
        obtain ⟨rfl, htokens⟩ := htokens
        rw [h.lines before u after htokens, textOf_cons, lineBreaks_append, Token.endLine, hline,
          Nat.add_assoc]

/-! ## Characters of a kind -/

/-- The kind of a token is told by its first character. -/
theorem kindOf_of_shapes {k : TokenKind} {c : Char} {cs : List Char} (h : k.Shapes (c :: cs)) :
    kindOf c = k := by
  cases k with
  | bracketOpen =>
    obtain ⟨rfl, -⟩ := List.cons.inj (show c :: cs = ['['] from h)
    decide
  | bracketClose =>
    obtain ⟨rfl, -⟩ := List.cons.inj (show c :: cs = [']'] from h)
    decide
  | whitespace => exact (isBlank_iff_kindOf c).mp (h c List.mem_cons_self)
  | word =>
    obtain ⟨hword, hdigit⟩ : (∀ d ∈ c :: cs, isWordChar d = true) ∧
      ∀ d ∈ (c :: cs).head?, Decimal.isDigit d = false := h
    exact (kindOf_eq_word_iff c).mpr ⟨hword c List.mem_cons_self, hdigit c rfl⟩
  | number =>
    rw [kindOf_eq_number_iff]
    have hnumeral : IsNumeral (c :: cs) := h
    rcases hnumeral with ⟨-, hdigits⟩ | ⟨ds, es, ⟨hne, hdigits⟩, -, heq⟩
    · exact hdigits c List.mem_cons_self
    · cases ds with
      | nil => exact absurd rfl hne
      | cons d ds =>
        rw [(List.cons.inj heq).1]
        exact hdigits d List.mem_cons_self

/-! ## Where a token stops -/

/-- The characters after a token could not belong to it. -/
def TokenKind.StopsAt (k : TokenKind) (cs rest : List Char) : Prop :=
  match k with
  | .bracketOpen | .bracketClose => True
  | .whitespace => ∀ d ∈ rest.head?, isBlank d = false
  | .number => (∀ d ∈ rest.head?, Decimal.isDigit d = false) ∧ (IsWhole cs → ¬ BeginsFraction rest)
  | .word => ∀ d ∈ rest.head?, isWordChar d = false

theorem fractionOf_eq_nil_iff (cs : List Char) : fractionOf cs = [] ↔ ¬ BeginsFraction cs := by
  constructor
  · rintro h ⟨d, ds, rfl, hd⟩
    simp [fractionOf, hd] at h
  · intro h
    unfold fractionOf
    split
    · next d ds => exact if_neg fun hd => h ⟨d, ds, rfl, hd⟩
    · rfl

/-- Where a point and a digit follow is told by the token that follows. -/
theorem beginsFraction_iff (d : Char) (ds : List Char) :
    BeginsFraction (d :: ds) ↔ kindOf d = .word ∧ BeginsFraction (d :: restOf d ds) := by
  have hpoint : kindOf '.' = .word := by decide
  constructor
  · rintro ⟨e, es, heq, he⟩
    obtain ⟨rfl, rfl⟩ := List.cons.inj heq
    refine ⟨hpoint, e, es.takeWhile isWordChar, ?_, he⟩
    simp [restOf, hpoint, isWordChar_of_isDigit he]
  · rintro ⟨-, e, es, heq, he⟩
    obtain ⟨rfl, hrest⟩ := List.cons.inj heq
    obtain ⟨more, hmore⟩ := isPrefix_restOf '.' ds
    exact ⟨e, es ++ more, by rw [← hmore, hrest, List.cons_append], he⟩

theorem stopsBefore_iff (t : Token) (line : Nat) (rest : List Char) :
    (∀ u ∈ (lexChars line rest).tokens.head?, t.StopsBefore u) ↔ t.kind.StopsAt t.text.toList rest := by
  cases rest with
  | nil =>
    unfold TokenKind.StopsAt
    cases t.kind <;> simp [BeginsFraction]
  | cons d ds =>
    have hblank : isBlank d = false ↔ kindOf d ≠ .whitespace := by
      rw [← Bool.not_eq_true, isBlank_iff_kindOf]
    have hword : isWordChar d = false ↔ kindOf d ≠ .word ∧ kindOf d ≠ .number := by
      rw [← Bool.not_eq_true, isWordChar_iff_kindOf, not_or]
    have hdigit : Decimal.isDigit d = false ↔ kindOf d ≠ .number := by
      rw [← Bool.not_eq_true, ← kindOf_eq_number_iff]
    rw [tokens_lexChars_cons]
    unfold Token.StopsBefore TokenKind.StopsAt
    cases t.kind <;> simp [hblank, hword, hdigit, beginsFraction_iff d ds]

/-! ## What belongs to a token -/

theorem takeWhile_append_eq_iff (p : Char → Bool) (cs rest : List Char) :
    (cs ++ rest).takeWhile p = cs ↔ (∀ c ∈ cs, p c = true) ∧ ∀ d ∈ rest.head?, p d = false := by
  constructor
  · intro h
    have hcs : ∀ c ∈ cs, p c = true := fun c hc => List.mem_takeWhile_imp (h.symm ▸ hc)
    refine ⟨hcs, ?_⟩
    cases rest with
    | nil => simp
    | cons d rest => simpa [List.takeWhile_append_of_pos hcs, List.takeWhile_cons] using h
  · rintro ⟨hcs, hrest⟩
    exact takeWhile_append_of_endsBefore (List.takeWhile_eq_self_iff.mpr hcs) hrest

theorem not_isWhole_of_point (ds es : List Char) : ¬ IsWhole (ds ++ '.' :: es) := by
  rintro ⟨-, hdigits⟩
  exact absurd (hdigits '.' (by simp)) (by decide)

/-- A number goes as far as it can, and only so far. -/
theorem number_eq_iff {c : Char} (hc : Decimal.isDigit c = true) (cs rest : List Char) :
    (cs ++ rest).takeWhile Decimal.isDigit ++ fractionOf ((cs ++ rest).dropWhile Decimal.isDigit) = cs ↔
      IsNumeral (c :: cs) ∧ TokenKind.number.StopsAt (c :: cs) rest := by
  constructor
  · intro h
    obtain ⟨ds, hds⟩ : ∃ ds, (cs ++ rest).takeWhile Decimal.isDigit = ds := ⟨_, rfl⟩
    obtain ⟨after, hafter⟩ : ∃ after, (cs ++ rest).dropWhile Decimal.isDigit = after := ⟨_, rfl⟩
    have hall : cs ++ rest = ds ++ after := by
      rw [← hds, ← hafter, List.takeWhile_append_dropWhile]
    have hdigits : IsWhole (c :: ds) := by
      refine ⟨List.cons_ne_nil _ _, List.forall_mem_cons.mpr ⟨hc, fun d hd => ?_⟩⟩
      exact List.mem_takeWhile_imp (hds ▸ hd)
    rw [hds, hafter] at h
    subst h
    rw [List.append_assoc, List.append_cancel_left_eq] at hall
    rcases fractionOf_eq_nil_or after with hnil | ⟨e, es, hfraction, he, hes⟩
    · rw [hnil, List.append_nil] at hds ⊢
      rw [hnil, List.nil_append] at hall
      subst hall
      exact ⟨Or.inl hdigits, ((takeWhile_append_eq_iff _ _ _).mp hds).2,
        fun _ => (fractionOf_eq_nil_iff rest).mp hnil⟩
    · have hes' : (es ++ rest).takeWhile Decimal.isDigit = es := by
        have hpoint : after = '.' :: e :: (es ++ rest) := by
          calc after = fractionOf after ++ rest := hall.symm
            _ = '.' :: e :: (es ++ rest) := by rw [hfraction]; rfl
        have hread := hfraction
        rw [hpoint] at hread
        simpa [fractionOf, he] using hread
      obtain ⟨hmore, hstop⟩ := (takeWhile_append_eq_iff _ _ _).mp hes'
      rw [hfraction]
      refine ⟨Or.inr ⟨c :: ds, e :: es, hdigits, ⟨List.cons_ne_nil _ _, ?_⟩, rfl⟩, hstop, fun hwhole => ?_⟩
      · exact List.forall_mem_cons.mpr ⟨he, hmore⟩
      · exact absurd hwhole (not_isWhole_of_point (c :: ds) (e :: es))
  · rintro ⟨hwhole | ⟨ds, es, hds, hes, heq⟩, hstop, hrest⟩
    · have hcs : cs.takeWhile Decimal.isDigit = cs := by
        rw [List.takeWhile_eq_self_iff]
        exact fun d hd => hwhole.2 d (List.mem_cons_of_mem _ hd)
      have hnumber := number_append hcs (Or.inl rfl) hstop
        fun _ => (fractionOf_eq_nil_iff rest).mpr (hrest hwhole)
      rwa [List.append_nil] at hnumber
    · obtain ⟨d, ds, rfl⟩ := List.exists_cons_of_ne_nil hds.1
      obtain ⟨e, es, rfl⟩ := List.exists_cons_of_ne_nil hes.1
      obtain ⟨rfl, rfl⟩ := List.cons.inj heq
      refine number_append (List.takeWhile_eq_self_iff.mpr ?_)
        (Or.inr ⟨e, es, rfl, hes.2 e List.mem_cons_self, List.takeWhile_eq_self_iff.mpr ?_⟩) hstop
        (fun h => absurd h (List.cons_ne_nil _ _))
      · exact fun d hd => hds.2 d (List.mem_cons_of_mem _ hd)
      · exact fun d hd => hes.2 d (List.mem_cons_of_mem _ hd)

/-- The characters that are read as one token are well-formed, and stop before the rest; where they
do so, they are read as one token. -/
theorem restOf_eq_iff (c : Char) (cs rest : List Char) :
    restOf c (cs ++ rest) = cs ↔
      (kindOf c).Shapes (c :: cs) ∧ (kindOf c).StopsAt (c :: cs) rest := by
  have hblank := isBlank_iff_kindOf c
  have hword := kindOf_eq_word_iff c
  have hnumber := kindOf_eq_number_iff c
  unfold restOf
  cases hk : kindOf c with
  | bracketOpen =>
    rw [eq_of_kindOf_bracket.1 hk]
    simp [TokenKind.Shapes, TokenKind.StopsAt, eq_comm]
  | bracketClose =>
    rw [eq_of_kindOf_bracket.2 hk]
    simp [TokenKind.Shapes, TokenKind.StopsAt, eq_comm]
  | whitespace =>
    simp only [takeWhile_append_eq_iff, TokenKind.Shapes, TokenKind.StopsAt, List.forall_mem_cons,
      hblank.mpr hk, true_and]
  | word =>
    have hc := hword.mp hk
    simp [takeWhile_append_eq_iff, TokenKind.Shapes, TokenKind.StopsAt, hc]
  | number => exact number_eq_iff (hnumber.mp hk) cs rest

/-! ## The law of reading -/

theorem lexChars_eq_cons_iff (line : Nat) (cs : List Char) (t : Token) (tokens : List Token) :
    (lexChars line cs).tokens = t :: tokens ↔
      ∃ rest, cs = t.text.toList ++ rest ∧ t.line = line ∧ t.text ≠ "" ∧
        t.kind.Shapes t.text.toList ∧ t.kind.StopsAt t.text.toList rest ∧
        (lexChars t.endLine rest).tokens = tokens := by
  constructor
  · intro h
    cases cs with
    | nil => simp at h
    | cons c cs =>
      rw [tokens_lexChars_cons, List.cons.injEq] at h
      obtain ⟨rfl, htokens⟩ := h
      obtain ⟨rest, hrest⟩ := isPrefix_restOf c cs
      obtain ⟨hshapes, hstops⟩ := (restOf_eq_iff c (restOf c cs) rest).mp (by rw [hrest])
      have hdrop : (restOf c cs ++ rest).drop (restOf c cs).length = rest := List.drop_left
      rw [hrest] at hdrop
      rw [hdrop] at htokens
      exact ⟨rest, by simp [hrest], rfl, by simp, by simpa using hshapes, by simpa using hstops,
        htokens⟩
  · rintro ⟨rest, rfl, rfl, hne, hshapes, hstops, rfl⟩
    obtain ⟨kind, text, line⟩ := t
    simp only at hne hshapes hstops ⊢
    cases hcs : text.toList with
    | nil => exact absurd (String.toList_eq_nil_iff.mp hcs) hne
    | cons c cs =>
      rw [hcs] at hshapes hstops
      obtain rfl := kindOf_of_shapes hshapes
      have hrest := (restOf_eq_iff c cs rest).mpr ⟨hshapes, hstops⟩
      rw [List.cons_append, tokens_lexChars_cons, hrest, ← hcs, String.ofList_toList]
      simp

theorem splits_iff (line : Nat) (text : String) (tokens : List Token) :
    Splits line text tokens ↔ tokens = (lex text line).tokens := by
  induction tokens generalizing line text with
  | nil =>
    rw [splits_nil_iff, ← String.toList_eq_nil_iff, lex]
    cases text.toList <;> simp [tokens_lexChars_cons]
  | cons t tokens ih =>
    rw [splits_cons_iff, lex, Eq.comm (a := t :: tokens), lexChars_eq_cons_iff]
    constructor
    · rintro ⟨rest, rfl, hline, hne, hshapes, hstops, h⟩
      rw [ih] at h
      subst h
      refine ⟨rest.toList, String.toList_append, hline, hne, hshapes, ?_, rfl⟩
      exact (stopsBefore_iff t t.endLine rest.toList).mp hstops
    · rintro ⟨rest, htext, hline, hne, hshapes, hstops, rfl⟩
      refine ⟨String.ofList rest, ?_, hline, hne, hshapes, (stopsBefore_iff t _ rest).mpr hstops, ?_⟩
      · rw [← String.toList_inj, htext, String.toList_append, String.toList_ofList]
      · rw [ih, lex, String.toList_ofList]

theorem Splits.lineAfter_eq {line : Nat} {text : String} {tokens : List Token}
    (h : Splits line text tokens) : lineAfter line tokens = line + lineBreaks text := by
  induction tokens generalizing line text with
  | nil =>
    rw [(splits_nil_iff line text).mp h]
    rfl
  | cons t tokens ih =>
    obtain ⟨rest, rfl, rfl, -, -, -, hrest⟩ := (splits_cons_iff line text t tokens).mp h
    have hlast : lineAfter t.endLine tokens = t.endLine + lineBreaks rest := ih hrest
    rw [lineBreaks_append, ← Nat.add_assoc]
    exact hlast

/-- Reading stops on the line after the last token. -/
theorem endLine_lexChars (line : Nat) (cs : List Char) :
    (lexChars line cs).endLine = lineAfter line (lexChars line cs).tokens := by
  induction line, cs using lexChars.induct with
  | case1 line => rw [lexChars_nil]; rfl
  | case2 line c cs token ih =>
    rw [lexChars]
    exact ih

/-- Reading gives the only split of a text, and ends on the line where the text ends. -/
theorem reading_is_the_only_split (text : String) (line : Nat) :
    (∀ tokens, Splits line text tokens ↔ tokens = (lex text line).tokens) ∧
      (lex text line).endLine = line + lineBreaks text := by
  refine ⟨splits_iff line text, ?_⟩
  rw [← ((splits_iff line text _).mpr rfl).lineAfter_eq]
  exact endLine_lexChars line text.toList

end TurtleScript
