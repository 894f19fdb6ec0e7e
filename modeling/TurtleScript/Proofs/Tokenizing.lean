-- The laws of reading tokens. A token is read again from its own text, and it
-- is read the same way in front of anything that does not merge with it. So
-- the tokens of a text stand in a row: each starts on the line where the one
-- before it ended, and each could have been submitted alone.
import Mathlib.Data.List.TakeWhile
import TurtleScript.Lexer
import TurtleScript.Source

namespace TurtleScript

/-! ## Classes of characters -/

theorem isBracketChar_iff_kindOf (c : Char) :
    isBracketChar c = true ↔ kindOf c = .bracketOpen ∨ kindOf c = .bracketClose := by
  unfold isBracketChar kindOf
  by_cases h1 : c = '['
  · simp [h1]
  · by_cases h2 : c = ']'
    · simp [h2]
    · simp only [h1, h2, decide_false, Bool.or_false, Bool.false_eq_true, if_false, false_iff]
      split
      · simp
      · split <;> simp

theorem isBlank_iff_kindOf (c : Char) : isBlank c = true ↔ kindOf c = .whitespace := by
  unfold kindOf
  by_cases h1 : c = '['
  · subst h1; decide
  · by_cases h2 : c = ']'
    · subst h2; decide
    · simp only [h1, h2, if_false]
      by_cases h3 : isBlank c = true
      · simp [h3]
      · simp only [h3, Bool.false_eq_true, if_false, false_iff]
        split <;> simp

/-- A digit is neither white space nor a bracket. -/
theorem isWordChar_of_isDigit {c : Char} (h : Decimal.isDigit c = true) : isWordChar c = true := by
  have hrange : '0' ≤ c ∧ c ≤ '9' := by simpa [Decimal.isDigit] using h
  have hlow : 48 ≤ c.toNat := hrange.1
  have hhigh : c.toNat ≤ 57 := hrange.2
  have hblank : isBlank c = false := by
    simp [isBlank, blankRanges]
    omega
  have hbracket : isBracketChar c = false := by
    simp only [isBracketChar, Bool.or_eq_false_iff, decide_eq_false_iff_not]
    constructor
    · rintro rfl
      exact absurd hhigh (by decide)
    · rintro rfl
      exact absurd hhigh (by decide)
  simp [isWordChar, hblank, hbracket]

theorem not_isDigit_of_not_isWordChar {c : Char} (h : isWordChar c = false) :
    Decimal.isDigit c = false := by
  rw [← Bool.not_eq_true] at h ⊢
  exact mt isWordChar_of_isDigit h

theorem isWordChar_of_kindOf {c : Char} (h : kindOf c = .word ∨ kindOf c = .number) :
    isWordChar c = true := by
  have hblank : isBlank c = false := by
    by_contra hc
    rw [Bool.not_eq_false, isBlank_iff_kindOf] at hc
    simp [hc] at h
  have hbracket : isBracketChar c = false := by
    by_contra hc
    rw [Bool.not_eq_false, isBracketChar_iff_kindOf] at hc
    rcases h with h | h <;> simp [h] at hc
  simp [isWordChar, hblank, hbracket]

theorem kindOf_eq_number_iff (c : Char) : kindOf c = .number ↔ Decimal.isDigit c = true := by
  constructor
  · intro h
    by_contra hdigit
    unfold kindOf at h
    split_ifs at h
  · intro h
    have hword := isWordChar_of_isDigit h
    simp only [isWordChar, isBracketChar, Bool.and_eq_true, Bool.not_eq_true',
      Bool.or_eq_false_iff, decide_eq_false_iff_not] at hword
    simp [kindOf, hword, h]

theorem kindOf_eq_word_iff (c : Char) :
    kindOf c = .word ↔ isWordChar c = true ∧ Decimal.isDigit c = false := by
  rw [← Bool.not_eq_true, ← kindOf_eq_number_iff]
  constructor
  · intro h
    exact ⟨isWordChar_of_kindOf (Or.inl h), by simp [h]⟩
  · rintro ⟨hword, hnumber⟩
    have hblank : kindOf c ≠ .whitespace := by
      rw [Ne, ← isBlank_iff_kindOf]
      intro h
      simp [isWordChar, h] at hword
    have hbracket : ¬ (kindOf c = .bracketOpen ∨ kindOf c = .bracketClose) := by
      rw [← isBracketChar_iff_kindOf]
      intro h
      simp [isWordChar, h] at hword
    rw [not_or] at hbracket
    cases h : kindOf c <;> simp_all

theorem isWordChar_iff_kindOf (c : Char) :
    isWordChar c = true ↔ kindOf c = .word ∨ kindOf c = .number := by
  constructor
  · intro h
    rw [kindOf_eq_number_iff, kindOf_eq_word_iff]
    cases Decimal.isDigit c <;> simp [h]
  · exact isWordChar_of_kindOf

theorem eq_of_kindOf_bracket {c : Char} :
    (kindOf c = .bracketOpen → c = '[') ∧ (kindOf c = .bracketClose → c = ']') := by
  unfold kindOf
  constructor <;> (intro h; split_ifs at h; assumption)

/-! ## Where a token ends -/

/-- Tokens of these kinds may read differently when nothing stands between them. -/
def TokenKind.merges (j k : TokenKind) : Bool :=
  !(j = .bracketOpen || j = .bracketClose) && !(k = .bracketOpen || k = .bracketClose) &&
    decide (j = .whitespace) == decide (k = .whitespace)

/-- Nothing that follows belongs to a token of this kind any more. -/
def EndsBefore (k : TokenKind) (rest : List Char) : Prop :=
  ∀ d ∈ rest.head?, k.merges (kindOf d) = false

theorem endsBefore_nil (k : TokenKind) : EndsBefore k [] := by simp [EndsBefore]

theorem not_isBlank_of_endsBefore {d : Char} (h : TokenKind.merges .whitespace (kindOf d) = false) :
    isBlank d = false := by
  by_contra hd
  rw [Bool.not_eq_false, isBlank_iff_kindOf] at hd
  rw [hd] at h
  exact absurd h (by decide)

theorem not_isWordChar_of_endsBefore {k : TokenKind} {d : Char} (hk : k = .word ∨ k = .number)
    (h : k.merges (kindOf d) = false) : isWordChar d = false := by
  by_contra hd
  simp only [Bool.not_eq_false, isWordChar, Bool.and_eq_true, Bool.not_eq_true'] at hd
  have hblank : kindOf d ≠ .whitespace := by
    rw [Ne, ← isBlank_iff_kindOf, hd.1]
    decide
  have hbracket : ¬ (kindOf d = .bracketOpen ∨ kindOf d = .bracketClose) := by
    rw [← isBracketChar_iff_kindOf, hd.2]
    decide
  rw [not_or] at hbracket
  rcases hk with rfl | rfl <;> simp [TokenKind.merges, hblank, hbracket] at h

theorem takeWhile_append_of_endsBefore {p : Char → Bool} {xs rest : List Char}
    (hxs : xs.takeWhile p = xs) (hrest : ∀ d ∈ rest.head?, p d = false) :
    (xs ++ rest).takeWhile p = xs := by
  rw [List.takeWhile_append_of_pos (List.takeWhile_eq_self_iff.mp hxs)]
  cases rest with
  | nil => simp
  | cons d rest => simp [hrest d rfl]

theorem takeWhile_takeWhile_self (p : Char → Bool) (cs : List Char) :
    (cs.takeWhile p).takeWhile p = cs.takeWhile p := by
  rw [List.takeWhile_takeWhile]
  simp

/-! ## One token -/

theorem fractionOf_eq_nil_or (cs : List Char) :
    fractionOf cs = [] ∨ ∃ d ds, fractionOf cs = '.' :: d :: ds ∧ Decimal.isDigit d = true ∧
      ds.takeWhile Decimal.isDigit = ds := by
  unfold fractionOf
  split
  · next c cs =>
    split
    · next hc => exact Or.inr ⟨c, _, rfl, hc, takeWhile_takeWhile_self _ _⟩
    · exact Or.inl rfl
  · exact Or.inl rfl

theorem fractionOf_append {d : Char} {ds rest : List Char} (hd : Decimal.isDigit d = true)
    (hds : ds.takeWhile Decimal.isDigit = ds) (hrest : ∀ e ∈ rest.head?, Decimal.isDigit e = false) :
    fractionOf ('.' :: d :: (ds ++ rest)) = '.' :: d :: ds := by
  simp only [fractionOf, hd, if_true]
  rw [takeWhile_append_of_endsBefore hds hrest]

theorem fractionOf_eq_nil {rest : List Char} (h : ∀ d ∈ rest.head?, d ≠ '.') :
    fractionOf rest = [] := by
  unfold fractionOf
  split
  · exact absurd rfl (h '.' rfl)
  · rfl

/-- The parts of a number: digits, then a fraction or nothing. -/
theorem number_append {ds fraction rest : List Char} (hds : ds.takeWhile Decimal.isDigit = ds)
    (hfraction : fraction = [] ∨ ∃ e es, fraction = '.' :: e :: es ∧ Decimal.isDigit e = true ∧
      es.takeWhile Decimal.isDigit = es)
    (hstop : ∀ d ∈ rest.head?, Decimal.isDigit d = false)
    (hpoint : fraction = [] → fractionOf rest = []) :
    (ds ++ fraction ++ rest).takeWhile Decimal.isDigit ++
      fractionOf ((ds ++ fraction ++ rest).dropWhile Decimal.isDigit) = ds ++ fraction := by
  have hdigits : ∀ x ∈ ds, Decimal.isDigit x = true := List.takeWhile_eq_self_iff.mp hds
  rw [List.append_assoc, List.takeWhile_append_of_pos hdigits, List.dropWhile_append_of_pos hdigits]
  rcases hfraction with rfl | ⟨e, es, rfl, he, hes⟩
  · cases rest with
    | nil => simp [fractionOf]
    | cons d rest =>
      have hd : Decimal.isDigit d = false := hstop d rfl
      simp [hd, hpoint rfl]
  · have hdot : Decimal.isDigit '.' = false := by decide
    simp only [List.cons_append, List.takeWhile_cons, List.dropWhile_cons, hdot, Bool.false_eq_true,
      if_false, List.append_nil]
    rw [fractionOf_append he hes hstop]

/-- A token is read the same way in front of anything that does not merge with it. -/
theorem restOf_append (c : Char) (cs rest : List Char) (hrest : EndsBefore (kindOf c) rest) :
    restOf c (restOf c cs ++ rest) = restOf c cs := by
  unfold EndsBefore at hrest
  unfold restOf
  cases hk : kindOf c with
  | bracketOpen => rfl
  | bracketClose => rfl
  | whitespace =>
    rw [hk] at hrest
    exact takeWhile_append_of_endsBefore (takeWhile_takeWhile_self _ _)
      fun d hd => not_isBlank_of_endsBefore (hrest d hd)
  | word =>
    rw [hk] at hrest
    exact takeWhile_append_of_endsBefore (takeWhile_takeWhile_self _ _)
      fun d hd => not_isWordChar_of_endsBefore (Or.inl rfl) (hrest d hd)
  | number =>
    rw [hk] at hrest
    have hword : ∀ d ∈ rest.head?, isWordChar d = false :=
      fun d hd => not_isWordChar_of_endsBefore (Or.inr rfl) (hrest d hd)
    refine number_append (takeWhile_takeWhile_self _ _) (fractionOf_eq_nil_or _)
      (fun d hd => not_isDigit_of_not_isWordChar (hword d hd)) fun _ => fractionOf_eq_nil ?_
    rintro d hd rfl
    exact absurd (hword _ hd) (by decide)

/-! ## Tokens in a row -/

/-- The line after some tokens, of which the first starts on `line`. -/
def lineAfter (line : Nat) (tokens : List Token) : Nat := tokens.foldl (fun _ t => t.endLine) line

/-- Tokens as a text gives them: each starts where the one before it ended, and its own text
reads as this token. -/
def InRow (line : Nat) : List Token → Prop
  | [] => True
  | t :: tokens => t.line = line ∧ (lex t.text line).tokens = [t] ∧ InRow t.endLine tokens

theorem lexChars_append (line : Nat) (c : Char) (cs rest : List Char)
    (hrest : EndsBefore (kindOf c) rest) :
    (lexChars line (c :: (restOf c cs ++ rest))).tokens =
      ⟨kindOf c, String.ofList (c :: restOf c cs), line⟩ ::
        (lexChars (Token.endLine ⟨kindOf c, String.ofList (c :: restOf c cs), line⟩) rest).tokens := by
  rw [tokens_lexChars_cons, restOf_append c cs rest hrest]
  simp

/-- A token reads as itself when its text is submitted alone. -/
theorem lexChars_token (line : Nat) (c : Char) (cs : List Char) :
    (lexChars line (c :: restOf c cs)).tokens =
      [⟨kindOf c, String.ofList (c :: restOf c cs), line⟩] := by
  have h := lexChars_append line c cs [] (endsBefore_nil _)
  rw [List.append_nil] at h
  rw [h, lexChars_nil]

theorem inRow_lexChars (line : Nat) (cs : List Char) : InRow line (lexChars line cs).tokens := by
  induction line, cs using lexChars.induct with
  | case1 line => simp [InRow]
  | case2 line c cs token ih =>
    rw [tokens_lexChars_cons]
    refine ⟨rfl, ?_, ih⟩
    simp only [lex, String.toList_ofList]
    exact lexChars_token line c cs

theorem inRow_append (line : Nat) (xs ys : List Token) :
    InRow line (xs ++ ys) ↔ InRow line xs ∧ InRow (lineAfter line xs) ys := by
  induction xs generalizing line with
  | nil => simp [InRow, lineAfter]
  | cons t xs ih =>
    simp only [List.cons_append, InRow, ih, and_assoc]
    rfl

/-- A token in a row starts with a character of its kind. -/
theorem exists_toList_of_lex {t : Token} {line : Nat} (h : (lex t.text line).tokens = [t]) :
    ∃ c cs, t.text.toList = c :: restOf c cs ∧ t.kind = kindOf c ∧ t.line = line := by
  unfold lex at h
  cases htext : t.text.toList with
  | nil => simp [htext] at h
  | cons c cs =>
    rw [htext, tokens_lexChars_cons] at h
    simp only [List.cons.injEq] at h
    have ht := h.1
    have hlist : t.text.toList = c :: restOf c cs := by simp [← ht]
    rw [htext] at hlist
    exact ⟨c, cs, hlist, by simp [← ht], by simp [← ht]⟩

/-- A token in a row is read in front of any text that does not merge with it. -/
theorem lex_append {t : Token} {line : Nat} {text : String} (h : (lex t.text line).tokens = [t])
    (hrest : EndsBefore t.kind text.toList) :
    (lex (t.text ++ text) line).tokens = t :: (lex text t.endLine).tokens := by
  obtain ⟨c, cs, hc, hkind, hline⟩ := exists_toList_of_lex h
  have ht : (⟨kindOf c, String.ofList (c :: restOf c cs), line⟩ : Token) = t := by
    rw [← hc, ← hkind, ← hline, String.ofList_toList]
  rw [hkind] at hrest
  unfold lex
  rw [String.toList_append, hc, List.cons_append, lexChars_append line c cs _ hrest, ht]

end TurtleScript
