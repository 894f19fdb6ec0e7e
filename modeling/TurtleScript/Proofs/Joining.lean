-- Reading a text in two parts. Where the cut goes through no word, the tokens
-- of the parts are those of the text, but for white space: a run of it that
-- the cut goes through is a token of each part and one of the text.
import TurtleScript.Proofs.Tokenizing

namespace TurtleScript

/-! ## Cuts -/

/-- The cut between two texts goes through no word: the characters at its sides are not both
characters of words. -/
def parted (xs ys : List Char) : Bool := !(xs.getLast?.any isWordChar && ys.head?.any isWordChar)

/-- The tokens of a text out of the tokens of its two parts: white space at the cut is one
token. -/
def joinTokens : List Token → List Token → List Token
  | [], vs => vs
  | [u], [] => [u]
  | [u], v :: vs =>
    if u.isBlank && v.isBlank then { u with text := u.text ++ v.text } :: vs else u :: v :: vs
  | t :: u :: us, vs => t :: joinTokens (u :: us) vs

theorem joinTokens_cons (t : Token) {us : List Token} (h : us ≠ []) (vs : List Token) :
    joinTokens (t :: us) vs = t :: joinTokens us vs := by
  cases us with
  | nil => exact absurd rfl h
  | cons u us => rfl

/-- The tokens at the sides of a cut stay as they are, or they are white space and become one. -/
theorem joinTokens_cases (us vs : List Token) :
    joinTokens us vs = us ++ vs ∨
      ∃ front u v rest, us = front ++ [u] ∧ vs = v :: rest ∧ u.isBlank = true ∧ v.isBlank = true ∧
        joinTokens us vs = front ++ { u with text := u.text ++ v.text } :: rest := by
  induction us with
  | nil => exact Or.inl rfl
  | cons t us ih =>
    by_cases hus : us = []
    · subst hus
      cases vs with
      | nil => exact Or.inl rfl
      | cons v vs =>
        by_cases hblank : (t.isBlank && v.isBlank) = true
        · have hboth := Bool.and_eq_true_iff.mp hblank
          exact Or.inr ⟨[], t, v, vs, rfl, rfl, hboth.1, hboth.2, by simp [joinTokens, hblank]⟩
        · exact Or.inl (by simp [joinTokens, hblank])
    · rw [joinTokens_cons t hus]
      rcases ih with hsame | ⟨front, u, v, rest, hfront, hrest, hu, hv, hjoin⟩
      · exact Or.inl (by rw [hsame, List.cons_append])
      · exact Or.inr ⟨t :: front, u, v, rest, by rw [hfront, List.cons_append], hrest, hu, hv,
          by rw [hjoin, List.cons_append]⟩

/-! ## Tokens that end before the cut -/

theorem isPrefix_restOf (c : Char) (cs : List Char) : restOf c cs <+: cs := by
  unfold restOf
  cases kindOf c with
  | bracketOpen => exact List.nil_prefix
  | bracketClose => exact List.nil_prefix
  | whitespace => exact List.takeWhile_prefix _
  | word => exact List.takeWhile_prefix _
  | number =>
    have hfraction :
        fractionOf (cs.dropWhile Decimal.isDigit) <+: cs.dropWhile Decimal.isDigit := by
      unfold fractionOf
      split
      · next c cs heq =>
        split
        · rw [heq, List.cons_prefix_cons, List.cons_prefix_cons]
          exact ⟨rfl, rfl, List.takeWhile_prefix _⟩
        · exact List.nil_prefix
      · exact List.nil_prefix
    have happend := (List.prefix_append_right_inj (cs.takeWhile Decimal.isDigit)).mpr hfraction
    rw [List.takeWhile_append_dropWhile] at happend
    exact happend

theorem takeWhile_append_of_ne {p : Char → Bool} {cs : List Char} (ys : List Char)
    (h : cs.drop (cs.takeWhile p).length ≠ []) : (cs ++ ys).takeWhile p = cs.takeWhile p := by
  rw [List.takeWhile_append, if_neg]
  intro hall
  apply h
  rw [hall, List.drop_length]

/-- A fraction that ends before the cut is not concerned with what comes after it. Only a point
right before the cut would be, if a digit came. -/
theorem fractionOf_append_of_ne {cs ys : List Char} (h : cs.drop (fractionOf cs).length ≠ [])
    (hcut : parted cs ys = true) : fractionOf (cs ++ ys) = fractionOf cs := by
  cases cs with
  | nil => simp at h
  | cons c cs =>
    by_cases hc : c = '.'
    · subst hc
      cases cs with
      | nil =>
        cases ys with
        | nil => rfl
        | cons d ys =>
          have hpoint : isWordChar '.' = true := by decide
          have hd : Decimal.isDigit d = false := by
            by_contra hdigit
            rw [Bool.not_eq_false] at hdigit
            simp [parted, hpoint, isWordChar_of_isDigit hdigit] at hcut
          simp [fractionOf, hd]
      | cons d cs =>
        by_cases hd : Decimal.isDigit d = true
        · have hrest : cs.drop (cs.takeWhile Decimal.isDigit).length ≠ [] := by
            simpa [fractionOf, hd] using h
          simp [fractionOf, hd, takeWhile_append_of_ne ys hrest]
        · simp [fractionOf, hd]
    · rw [List.cons_append, fractionOf_eq_nil (by simp [hc]), fractionOf_eq_nil (by simp [hc])]

theorem getLast?_drop_of_ne {xs : List Char} (n : Nat) (h : xs.drop n ≠ []) :
    (xs.drop n).getLast? = xs.getLast? := by
  rw [List.getLast?_drop, if_neg]
  intro hle
  exact h (List.drop_eq_nil_of_le hle)

theorem parted_drop {xs ys : List Char} (n : Nat) (h : xs.drop n ≠ []) :
    parted (xs.drop n) ys = parted xs ys := by
  unfold parted
  rw [getLast?_drop_of_ne n h]

/-- A token that ends before the cut is read the same way in front of the other part. -/
theorem restOf_append_of_ne {c : Char} {cs ys : List Char} (h : cs.drop (restOf c cs).length ≠ [])
    (hcut : parted cs ys = true) : restOf c (cs ++ ys) = restOf c cs := by
  unfold restOf at h ⊢
  cases hk : kindOf c with
  | bracketOpen => rfl
  | bracketClose => rfl
  | whitespace =>
    rw [hk] at h
    exact takeWhile_append_of_ne ys h
  | word =>
    rw [hk] at h
    exact takeWhile_append_of_ne ys h
  | number =>
    simp only [hk, List.length_append, ← List.drop_drop] at h
    have hdigits :
        cs.drop (cs.takeWhile Decimal.isDigit).length = cs.dropWhile Decimal.isDigit := by
      have hdrop : (cs.takeWhile Decimal.isDigit ++ cs.dropWhile Decimal.isDigit).drop
          (cs.takeWhile Decimal.isDigit).length = cs.dropWhile Decimal.isDigit := List.drop_left
      rwa [List.takeWhile_append_dropWhile] at hdrop
    rw [hdigits] at h
    have hne : cs.dropWhile Decimal.isDigit ≠ [] := by
      intro hnil
      rw [hnil] at h
      simp at h
    have hcut' : parted (cs.dropWhile Decimal.isDigit) ys = true := by
      rw [← hdigits, parted_drop _ (hdigits ▸ hne)]
      exact hcut
    simp only
    rw [takeWhile_append_of_ne ys (hdigits ▸ hne), List.dropWhile_append, if_neg (by simp [hne]),
      fractionOf_append_of_ne h hcut']

/-! ## Tokens that go up to the cut -/

/-- A word or a number is made of characters of words. -/
theorem isWordChar_of_mem_restOf {c d : Char} {cs : List Char}
    (h : kindOf c = .word ∨ kindOf c = .number) (hd : d ∈ restOf c cs) : isWordChar d = true := by
  unfold restOf at hd
  rcases h with h | h
  · rw [h] at hd
    exact List.mem_takeWhile_imp hd
  · simp only [h, List.mem_append] at hd
    rcases hd with hd | hd
    · exact isWordChar_of_isDigit (List.mem_takeWhile_imp hd)
    · rcases fractionOf_eq_nil_or (cs.dropWhile Decimal.isDigit) with
        hnil | ⟨e, es, hes, he, hdigits⟩
      · simp [hnil] at hd
      · rw [hes, List.mem_cons, List.mem_cons] at hd
        rcases hd with rfl | rfl | hd
        · decide
        · exact isWordChar_of_isDigit he
        · exact isWordChar_of_isDigit (List.takeWhile_eq_self_iff.mp hdigits d hd)

/-- A token that goes up to the cut ends there, unless there is white space at both sides. -/
theorem endsBefore_of_parted {c : Char} {cs ys : List Char} (hall : restOf c cs = cs)
    (hcut : parted (c :: cs) ys = true)
    (hblank : kindOf c = .whitespace → ∀ d ∈ ys.head?, isBlank d = false) :
    EndsBefore (kindOf c) ys := by
  intro d hd
  cases hk : kindOf c with
  | bracketOpen => rfl
  | bracketClose => rfl
  | whitespace =>
    have hkind : kindOf d ≠ .whitespace := by
      rw [Ne, ← isBlank_iff_kindOf, hblank hk d hd]
      decide
    simp [TokenKind.merges, hkind]
  | word | number =>
    have hc : isWordChar c = true := isWordChar_of_kindOf (by simp [hk])
    have hlast : ∀ e ∈ (c :: cs).getLast?, isWordChar e = true := by
      intro e he
      rcases List.mem_cons.mp (List.mem_of_getLast? he) with rfl | he
      · exact hc
      · have hrest : e ∈ restOf c cs := hall.symm ▸ he
        exact isWordChar_of_mem_restOf (by simp [hk]) hrest
    obtain ⟨e, he⟩ : ∃ e, (c :: cs).getLast? = some e := ⟨_, List.getLast?_cons⟩
    have hd' : isWordChar d = false := by
      rw [Option.mem_def] at hd
      simpa [parted, he, hd, hlast e he] using hcut
    by_contra hmerges
    have hword : kindOf d = .word ∨ kindOf d = .number := by
      cases hkd : kindOf d <;> simp [TokenKind.merges, hkd] at hmerges ⊢
    rw [isWordChar_of_kindOf hword] at hd'
    cases hd'

/-! ## The whole text -/

theorem lineBreaks_append (s t : String) : lineBreaks (s ++ t) = lineBreaks s + lineBreaks t := by
  unfold lineBreaks
  rw [String.toList_append, List.count_append]

/-- A token at a cut stays as it is if it is not followed by white space or is none itself. -/
theorem joinTokens_alone {u : Token} {line : Nat} {ys : List Char}
    (h : u.kind = .whitespace → ∀ d ∈ ys.head?, isBlank d = false) :
    joinTokens [u] (lexChars line ys).tokens = u :: (lexChars line ys).tokens := by
  cases ys with
  | nil => simp [joinTokens]
  | cons d ys =>
    rw [tokens_lexChars_cons]
    unfold joinTokens
    rw [if_neg]
    intro hboth
    obtain ⟨hu, hd⟩ := Bool.and_eq_true_iff.mp hboth
    have hdkind : kindOf d = .whitespace := by simpa [Token.isBlank] using hd
    have hdblank := h (by simpa [Token.isBlank] using hu) d rfl
    rw [(isBlank_iff_kindOf d).mpr hdkind] at hdblank
    cases hdblank

/-- White space at both sides of a cut is one token of the whole text. -/
theorem lexChars_blanks (line : Nat) {c d : Char} {cs ys : List Char} (hall : restOf c cs = cs)
    (hc : kindOf c = .whitespace) (hd : isBlank d = true) :
    (lexChars line (c :: (cs ++ d :: ys))).tokens =
      joinTokens (lexChars line (c :: cs)).tokens
        (lexChars (lineAfter line (lexChars line (c :: cs)).tokens) (d :: ys)).tokens := by
  have hk : kindOf d = .whitespace := (isBlank_iff_kindOf d).mp hd
  have hcs : ∀ e ∈ cs, isBlank e = true := by
    unfold restOf at hall
    rw [hc] at hall
    exact List.takeWhile_eq_self_iff.mp hall
  have hwhole : restOf c (cs ++ d :: ys) = cs ++ d :: restOf d ys := by
    unfold restOf
    rw [hc, hk]
    simp only
    rw [List.takeWhile_append_of_pos hcs, List.takeWhile_cons_of_pos hd]
  have hfirst : (lexChars line (c :: cs)).tokens = [⟨.whitespace, String.ofList (c :: cs), line⟩] := by
    have htoken := lexChars_token line c cs
    rw [hall, hc] at htoken
    exact htoken
  rw [hfirst, tokens_lexChars_cons, hwhole, hc]
  simp only [lineAfter, List.foldl_cons, List.foldl_nil]
  rw [tokens_lexChars_cons, hk]
  have htext : String.ofList (c :: (cs ++ d :: restOf d ys)) =
      String.ofList (c :: cs) ++ String.ofList (d :: restOf d ys) := by
    rw [← String.ofList_append, List.cons_append]
  have hline : ∀ s t : String, Token.endLine ⟨.whitespace, s ++ t, line⟩ =
      Token.endLine ⟨.whitespace, t, Token.endLine ⟨.whitespace, s, line⟩⟩ := by
    intro s t
    simp only [Token.endLine, lineBreaks_append]
    omega
  have hdrop : (cs ++ d :: ys).drop (cs ++ d :: restOf d ys).length =
      ys.drop (restOf d ys).length := by
    rw [List.length_append, ← List.drop_drop, List.drop_left, List.length_cons, List.drop_succ_cons]
  rw [htext, hline, hdrop]
  simp [joinTokens, Token.isBlank]

/-- The tokens of a text are those of its two parts, if the cut goes through no word. -/
theorem lexChars_append_parted (line : Nat) (xs ys : List Char) (h : parted xs ys = true) :
    (lexChars line (xs ++ ys)).tokens =
      joinTokens (lexChars line xs).tokens
        (lexChars (lineAfter line (lexChars line xs).tokens) ys).tokens := by
  induction line, xs using lexChars.induct with
  | case1 line => simp [joinTokens, lineAfter]
  | case2 line c cs token ih =>
    by_cases hrest : cs.drop (restOf c cs).length = []
    · have hall : restOf c cs = cs := by
        have hprefix := isPrefix_restOf c cs
        exact hprefix.eq_of_length_le (List.drop_eq_nil_iff.mp hrest)
      by_cases hblank : kindOf c = .whitespace → ∀ d ∈ ys.head?, isBlank d = false
      · have hfirst : (lexChars line (c :: cs)).tokens = [token] := by
          have htoken := lexChars_token line c cs
          rw [hall] at htoken
          simpa [token, hall] using htoken
        have hwhole := lexChars_append line c cs ys (endsBefore_of_parted hall h hblank)
        rw [hall] at hwhole
        rw [List.cons_append, hwhole, hfirst, joinTokens_alone hblank]
        simp only [lineAfter, List.foldl_cons, List.foldl_nil, token, hall]
      · simp only [Classical.not_imp, not_forall] at hblank
        obtain ⟨hc, d, hd, hdblank⟩ := hblank
        rw [Bool.not_eq_false] at hdblank
        cases ys with
        | nil => simp at hd
        | cons e ys =>
          simp only [List.head?_cons, Option.mem_some_iff] at hd
          subst hd
          exact lexChars_blanks line hall hc hdblank
    · have hcut : parted cs ys = true := by
        have hdrop : parted ((c :: cs).drop ((restOf c cs).length + 1)) ys = parted (c :: cs) ys :=
          parted_drop _ hrest
        have hdrop' : parted (cs.drop (restOf c cs).length) ys = parted cs ys :=
          parted_drop _ hrest
        rw [← hdrop', ← h, ← hdrop, List.drop_succ_cons]
      have hsame := restOf_append_of_ne hrest hcut
      have hlength := (isPrefix_restOf c cs).length_le
      have hnext := ih (by rw [parted_drop _ hrest]; exact hcut)
      have hne : (lexChars token.endLine (cs.drop (restOf c cs).length)).tokens ≠ [] := by
        cases hdrop : cs.drop (restOf c cs).length with
        | nil => exact absurd hdrop hrest
        | cons d ds => simp [tokens_lexChars_cons]
      rw [List.cons_append, tokens_lexChars_cons, hsame, List.drop_append_of_le_length hlength]
      rw [hnext, tokens_lexChars_cons, joinTokens_cons _ hne]
      rfl

/-! ## White space at the cut -/

/-- White space at the end of the tokens of a text is white space at its end. -/
theorem isBlank_of_lexChars_snoc {line : Nat} {xs : List Char} {u : Token} (hu : u.isBlank = true) :
    ∀ front, (lexChars line xs).tokens = front ++ [u] → xs.getLast?.any isBlank = true := by
  induction line, xs using lexChars.induct with
  | case1 line => simp
  | case2 line c cs token ih =>
    intro front h
    rw [tokens_lexChars_cons] at h
    cases hrest : cs.drop (restOf c cs).length with
    | nil =>
      have hall : restOf c cs = cs :=
        (isPrefix_restOf c cs).eq_of_length_le (List.drop_eq_nil_iff.mp hrest)
      have hc : kindOf c = .whitespace := by
        rw [hrest, lexChars_nil] at h
        have hsole := Option.some.inj ((congrArg List.getLast? h).trans List.getLast?_concat)
        rw [← hsole] at hu
        simpa [Token.isBlank] using hu
      have hblank : ∀ d ∈ c :: cs, isBlank d = true := by
        intro d hd
        rcases List.mem_cons.mp hd with rfl | hd
        · exact (isBlank_iff_kindOf d).mpr hc
        · rw [← hall] at hd
          unfold restOf at hd
          rw [hc] at hd
          exact List.mem_takeWhile_imp hd
      rw [List.getLast?_cons]
      exact hblank _ (List.mem_of_getLast? List.getLast?_cons)
    | cons d ds =>
      cases front with
      | nil => simp [hrest, tokens_lexChars_cons] at h
      | cons t front =>
        have hlast := ih front (List.cons.inj h).2
        have hsame : (c :: cs).getLast? = (cs.drop (restOf c cs).length).getLast? := by
          have hdrop : (c :: cs).drop ((restOf c cs).length + 1) ≠ [] := by
            rw [List.drop_succ_cons, hrest]
            simp
          rw [← getLast?_drop_of_ne _ hdrop, List.drop_succ_cons]
        rw [hsame]
        exact hlast

theorem isBlank_of_lexChars_cons {line : Nat} {ys : List Char} {v : Token} {rest : List Token}
    (h : (lexChars line ys).tokens = v :: rest) (hv : v.isBlank = true) :
    ys.head?.any isBlank = true ∧ v.line = line := by
  cases ys with
  | nil => simp at h
  | cons d ds =>
    rw [tokens_lexChars_cons, List.cons.injEq] at h
    obtain ⟨rfl, -⟩ := h
    have hd : kindOf d = .whitespace := by simpa [Token.isBlank] using hv
    exact ⟨(isBlank_iff_kindOf d).mpr hd, rfl⟩

end TurtleScript
