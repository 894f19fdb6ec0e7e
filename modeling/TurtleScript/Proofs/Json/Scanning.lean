-- Written JSON is read back lexeme by lexeme. A word ends only when the next
-- character is seen, so after a number the reader is not yet where it is after
-- a string; but what it does next is the same, and this is all that counts
-- when pieces of text are put one after the other.
import Mathlib.Data.List.TakeWhile
import TurtleScript.Json.Lexeme
import TurtleScript.Json.Writer

namespace TurtleScript.Json

/-! ## Reading a piece of text -/

/-- The reader has these lexemes, last first, as soon as it knows that no word goes on. -/
def Scan.Has (s : Scan) (done : List Lexeme) : Prop :=
  s = ⟨done, .between⟩ ∨
    ∃ before read value, s = ⟨before, .word read⟩ ∧ word? read.reverse = some value ∧
      done = .scalar value :: before

/-- A text that starts between lexemes reads as these lexemes. -/
def Scans (cs : List Char) (lexemes : List Lexeme) : Prop :=
  ∀ done, ∃ s, cs.foldlM Scan.take? ⟨done, .between⟩ = some s ∧ s.Has (lexemes.reverse ++ done)

/-- Nothing that follows belongs to a word any more. -/
def StartsFresh (cs : List Char) : Prop := ∀ c ∈ cs.head?, endsWord c = true

theorem Scan.Has.take? {s : Scan} {done : List Lexeme} (h : s.Has done) {c : Char}
    (hc : endsWord c = true) : s.take? c = some (startLexeme done c) := by
  rcases h with rfl | ⟨before, read, value, rfl, hvalue, rfl⟩
  · rfl
  · simp [Scan.take?, hc, hvalue]

theorem Scan.Has.finish? {s : Scan} {done : List Lexeme} (h : s.Has done) :
    s.finish? = some done.reverse := by
  rcases h with rfl | ⟨before, read, value, rfl, hvalue, rfl⟩
  · rfl
  · simp [Scan.finish?, hvalue]

/-- After a text that is read like this, the reader knows that no word goes on. -/
def Settles (cs : List Char) (lexemes : List Lexeme) : Prop :=
  ∀ done, cs.foldlM Scan.take? ⟨done, .between⟩ = some ⟨lexemes.reverse ++ done, .between⟩

theorem Settles.scans {cs : List Char} {lexemes : List Lexeme} (h : Settles cs lexemes) :
    Scans cs lexemes := fun done => ⟨_, h done, Or.inl rfl⟩

theorem settles_nil : Settles [] [] := fun _ => rfl

/-- Where the reader knows that no word goes on, any text may follow. -/
theorem Settles.append {xs ys : List Char} {ls ms : List Lexeme} (hx : Settles xs ls)
    (hy : Scans ys ms) : Scans (xs ++ ys) (ls ++ ms) := by
  intro done
  obtain ⟨s, hs, hhas⟩ := hy (ls.reverse ++ done)
  refine ⟨s, ?_, ?_⟩
  · rw [List.foldlM_append, hx]
    exact hs
  · rw [List.reverse_append, List.append_assoc]
    exact hhas

theorem Settles.cons {c : Char} {ys : List Char} {ls ms : List Lexeme} (hx : Settles [c] ls)
    (hy : Scans ys ms) : Scans (c :: ys) (ls ++ ms) := hx.append hy

/-- After any other text, only what does not go on within a word. -/
theorem Scans.append {xs ys : List Char} {ls ms : List Lexeme} (hx : Scans xs ls) (hy : Scans ys ms)
    (hfresh : StartsFresh ys) : Scans (xs ++ ys) (ls ++ ms) := by
  intro done
  obtain ⟨s, hs, hhas⟩ := hx done
  obtain ⟨t, ht, hthas⟩ := hy (ls.reverse ++ done)
  rw [List.foldlM_append, hs]
  have hreverse : (ls ++ ms).reverse ++ done = ms.reverse ++ (ls.reverse ++ done) := by simp
  rw [hreverse]
  cases ys with
  | nil =>
    simp only [List.foldlM_nil, Option.pure_def, Option.some.injEq] at ht
    subst ht
    refine ⟨s, rfl, ?_⟩
    have hlast : ms.reverse ++ (ls.reverse ++ done) = ls.reverse ++ done := by
      rcases hthas with h | ⟨_, _, _, h, _⟩
      · exact (congrArg Scan.done h).symm
      · cases h
    rw [hlast]
    exact hhas
  | cons c ys =>
    have hc : endsWord c = true := hfresh c rfl
    refine ⟨t, ?_, hthas⟩
    rw [← ht]
    simp only [Option.bind_eq_bind, Option.bind_some, List.foldlM_cons]
    rw [hhas.take? hc]
    rfl

theorem lexemes?_of_scans {cs : List Char} {lexemes : List Lexeme} (h : Scans cs lexemes) :
    lexemes? cs = some lexemes := by
  obtain ⟨s, hs, hhas⟩ := h []
  unfold lexemes?
  rw [hs, Option.bind_some, hhas.finish?]
  simp

/-! ## Punctuation and gaps -/

theorem settles_punctuation {c : Char} {lexeme : Lexeme} (h : punctuation? c = some lexeme)
    (hgap : isGap c = false) (hquote : c ≠ '"') : Settles [c] [lexeme] := by
  intro done
  simp [Scan.take?, startLexeme, hgap, hquote, h]

theorem settles_arrOpen : Settles ['['] [.arrOpen] := settles_punctuation rfl rfl (by decide)
theorem settles_arrClose : Settles [']'] [.arrClose] := settles_punctuation rfl rfl (by decide)
theorem settles_objOpen : Settles ['\x7b'] [.objOpen] := settles_punctuation rfl rfl (by decide)
theorem settles_objClose : Settles ['\x7d'] [.objClose] := settles_punctuation rfl rfl (by decide)
theorem settles_colon : Settles [':'] [.colon] := settles_punctuation rfl rfl (by decide)
theorem settles_comma : Settles [','] [.comma] := settles_punctuation rfl rfl (by decide)

theorem settles_gaps {cs : List Char} (h : ∀ c ∈ cs, isGap c = true) : Settles cs [] := by
  induction cs with
  | nil => exact settles_nil
  | cons c cs ih =>
    intro done
    have hc : isGap c = true := h c List.mem_cons_self
    rw [← ih (fun d hd => h d (List.mem_cons_of_mem _ hd)) done, List.foldlM_cons]
    simp [Scan.take?, startLexeme, hc]

theorem isGap_of_mem_newLine {depth : Nat} {c : Char} (h : c ∈ newLine depth) : isGap c = true := by
  simp only [newLine, List.mem_cons, List.mem_replicate] at h
  rcases h with rfl | ⟨-, rfl⟩ <;> decide

/-! ## Strings -/

theorem hexValue?_hexChar {n : Nat} (h : n < 16) : hexValue? (hexChar n) = some n := by
  have all : ∀ n < 16, hexValue? (hexChar n) = some n := by decide
  exact all n h

/-- A control character is read back from its four hexadecimal digits. -/
theorem foldlM_take?_control (done : List Lexeme) (read : List Char) (c : Char)
    (h : c.toNat < 0x20) :
    ['\\', 'u', '0', '0', hexChar (c.toNat / 16), hexChar (c.toNat % 16)].foldlM Scan.take?
      ⟨done, .inString (some read)⟩ = some ⟨done, .inString (some (c :: read))⟩ := by
  have hhigh : hexValue? (hexChar (c.toNat / 16)) = some (c.toNat / 16) :=
    hexValue?_hexChar (by omega)
  have hlow : hexValue? (hexChar (c.toNat % 16)) = some (c.toNat % 16) :=
    hexValue?_hexChar (by omega)
  have hzero : hexValue? '0' = some 0 := by decide
  have hvalue : 16 * (c.toNat / 16) + c.toNat % 16 = c.toNat := by omega
  have hfirst : isHighHalf c.toNat = false := by
    simp only [isHighHalf, Bool.and_eq_false_iff, decide_eq_false_iff_not]
    omega
  have hsecond : isLowHalf c.toNat = false := by
    simp only [isLowHalf, Bool.and_eq_false_iff, decide_eq_false_iff_not]
    omega
  simp [Scan.take?, Reading.take?, Reading.takeEscape?, hzero, hhigh, hlow, hvalue, Reading.afterHex,
    hfirst, hsecond, Reading.push]

/-- A character of a string is read back from what is written for it. -/
theorem foldlM_take?_escapeChar (done : List Lexeme) (read : List Char) (c : Char) :
    (escapeChar c).foldlM Scan.take? ⟨done, .inString (some read)⟩ =
      some ⟨done, .inString (some (c :: read))⟩ := by
  unfold escapeChar
  split
  · next h => subst h; rfl
  · next hquote =>
    split
    · next h => subst h; rfl
    · next hslash =>
      split
      · next h => subst h; rfl
      · split
        · next h => subst h; rfl
        · split
          · next h => subst h; rfl
          · split
            · next h => subst h; rfl
            · split
              · next h => subst h; rfl
              · split
                · next hcontrol => exact foldlM_take?_control done read c hcontrol
                · next hplain =>
                  simp [Scan.take?, Reading.take?, hquote, hslash, hplain, Reading.push]

theorem foldlM_take?_escaped (done : List Lexeme) (read cs : List Char) :
    (cs.flatMap escapeChar).foldlM Scan.take? ⟨done, .inString (some read)⟩ =
      some ⟨done, .inString (some (cs.reverse ++ read))⟩ := by
  induction cs generalizing read with
  | nil => rfl
  | cons c cs ih =>
    rw [List.flatMap_cons, List.foldlM_append, foldlM_take?_escapeChar]
    simp only [Option.bind_eq_bind, Option.bind_some]
    rw [ih]
    simp

theorem settles_quoted (s : String) : Settles (quoted s) [.string (some s)] := by
  intro done
  have hopen : Scan.take? ⟨done, .between⟩ '"' = some ⟨done, .inString (some [])⟩ := rfl
  unfold quoted
  rw [List.foldlM_cons, hopen]
  simp only [Option.bind_eq_bind, Option.bind_some]
  rw [List.foldlM_append, foldlM_take?_escaped]
  simp [Scan.take?, Reading.take?]

/-! ## Words -/

/-- A run of characters that no lexeme but a word can hold. -/
def IsWord (cs : List Char) : Prop := ∀ c ∈ cs, endsWord c = false

instance : DecidablePred IsWord :=
  fun cs => decidable_of_iff ((cs.all fun c => !endsWord c) = true) (by simp [IsWord])

theorem foldlM_take?_word (done : List Lexeme) (read cs : List Char) (h : IsWord cs) :
    cs.foldlM Scan.take? ⟨done, .word read⟩ = some ⟨done, .word (cs.reverse ++ read)⟩ := by
  induction cs generalizing read with
  | nil => rfl
  | cons c cs ih =>
    have hc : endsWord c = false := h c List.mem_cons_self
    rw [List.foldlM_cons]
    simp only [Scan.take?, hc, Bool.false_eq_true, if_false, Option.bind_eq_bind, Option.bind_some]
    rw [ih _ fun d hd => h d (List.mem_cons_of_mem _ hd)]
    simp

theorem startLexeme_of_word (done : List Lexeme) {c : Char} (h : endsWord c = false) :
    startLexeme done c = ⟨done, .word [c]⟩ := by
  simp only [endsWord, Bool.or_eq_false_iff, decide_eq_false_iff_not, Option.isSome_eq_false_iff,
    Option.isNone_iff_eq_none] at h
  simp [startLexeme, h.1.1, h.1.2, h.2]

theorem scans_word {cs : List Char} {value : Json} (hne : cs ≠ []) (hcs : IsWord cs)
    (h : word? cs = some value) : Scans cs [.scalar value] := by
  intro done
  cases cs with
  | nil => exact absurd rfl hne
  | cons c cs =>
    have hc : endsWord c = false := hcs c List.mem_cons_self
    refine ⟨⟨done, .word (cs.reverse ++ [c])⟩, ?_, Or.inr ⟨done, _, value, rfl, ?_, rfl⟩⟩
    · rw [List.foldlM_cons]
      simp only [Scan.take?, startLexeme_of_word done hc, Option.bind_eq_bind, Option.bind_some]
      exact foldlM_take?_word done [c] cs fun d hd => hcs d (List.mem_cons_of_mem _ hd)
    · simpa using h

/-! ## Whole numbers -/

theorem endsWord_of_isDigit {c : Char} (h : Decimal.isDigit c = true) : endsWord c = false := by
  have hall : ∀ n < 10, endsWord (Char.ofNat (48 + n)) = false := by decide
  have hrange : '0' ≤ c ∧ c ≤ '9' := by simpa [Decimal.isDigit] using h
  have hlow : 48 ≤ c.toNat := hrange.1
  have hhigh : c.toNat ≤ 57 := hrange.2
  have hc := hall (c.toNat - 48) (by omega)
  rw [show 48 + (c.toNat - 48) = c.toNat by omega, Char.ofNat_toNat] at hc
  exact hc

theorem digitChar_eq_zero {n : Nat} (h : n < 10) (hzero : Decimal.digitChar n = '0') : n = 0 := by
  have all : ∀ n < 10, Decimal.digitChar n = '0' → n = 0 := by decide
  exact all n h hzero

/-- Only zero starts with the digit zero. -/
theorem head?_digits_ne_zero {n : Nat} (h : 0 < n) : (Decimal.digits n).head? ≠ some '0' := by
  induction n using Decimal.digits.induct with
  | case1 n hn =>
    rw [Decimal.digits, if_pos hn, List.head?_cons]
    intro hzero
    have := digitChar_eq_zero hn (Option.some.inj hzero)
    omega
  | case2 n hn ih =>
    obtain ⟨c, cs, hc⟩ := List.exists_cons_of_ne_nil (Decimal.digits_ne_nil (n / 10))
    have hfirst := ih (by omega)
    rw [hc] at hfirst
    rw [Decimal.digits, if_neg hn, hc]
    exact hfirst

theorem unsignedNumeral?_digits (negative : Bool) (n : Nat) :
    unsignedNumeral? negative (Decimal.digits n) =
      some { negative, whole := Decimal.digits n, fraction := none, power := none } := by
  have hdigits : ∀ c ∈ Decimal.digits n, Decimal.isDigit c = true :=
    fun c hc => Decimal.isDigit_of_mem_digits hc
  have htake : (Decimal.digits n).takeWhile Decimal.isDigit = Decimal.digits n :=
    List.takeWhile_eq_self_iff.mpr hdigits
  have hdrop : (Decimal.digits n).dropWhile Decimal.isDigit = [] :=
    List.dropWhile_eq_nil_iff.mpr hdigits
  have hzero : ¬ ((Decimal.digits n).head? = some '0' ∧ Decimal.digits n ≠ ['0']) := by
    rintro ⟨hhead, hne⟩
    rcases Nat.eq_zero_or_pos n with rfl | hn
    · exact hne (by rw [Decimal.digits]; rfl)
    · exact head?_digits_ne_zero hn hhead
  unfold unsignedNumeral?
  simp only [htake, hdrop, Decimal.digits_ne_nil, hzero, or_self, if_false, power?, Option.map_some]

theorem head?_digits_isDigit (n : Nat) :
    ∃ c cs, Decimal.digits n = c :: cs ∧ Decimal.isDigit c = true := by
  cases h : Decimal.digits n with
  | nil => exact absurd h (Decimal.digits_ne_nil n)
  | cons c cs => exact ⟨c, cs, rfl, Decimal.isDigit_of_mem_digits (h ▸ List.mem_cons_self)⟩

/-- A whole number that is kept exactly. -/
def FitsWord : Int → Prop
  | .ofNat n => n ≤ maxWhole
  | .negSucc n => n + 1 ≤ maxBelowZero

instance : DecidablePred FitsWord
  | .ofNat n => inferInstanceAs (Decidable (n ≤ maxWhole))
  | .negSucc n => inferInstanceAs (Decidable (n + 1 ≤ maxBelowZero))

theorem number?_intDigits {n : Int} (h : FitsWord n) :
    number? (Decimal.intDigits n) = some (.int n) := by
  cases n with
  | ofNat n =>
    obtain ⟨c, cs, hc, hdigit⟩ := head?_digits_isDigit n
    have hnumeral : numeral? (Decimal.digits n) = unsignedNumeral? false (Decimal.digits n) := by
      rw [hc]
      unfold numeral?
      split
      · next heq =>
        injection heq with h1 h2
        subst h1
        exact absurd hdigit (by decide)
      · rfl
    have hfits : n ≤ maxWhole := h
    simp [number?, Decimal.intDigits, hnumeral, unsignedNumeral?_digits, Numeral.value,
      Decimal.readDigits_digits, hfits]
  | negSucc n =>
    have hfits : n + 1 ≤ maxBelowZero := h
    have hnumeral : numeral? ('-' :: Decimal.digits (n + 1)) =
        unsignedNumeral? true (Decimal.digits (n + 1)) := rfl
    simp only [number?, Decimal.intDigits, hnumeral, unsignedNumeral?_digits, Option.map_some,
      Numeral.value, Decimal.readDigits_digits, hfits]
    simp [Int.negSucc_eq]

theorem isWord_intDigits (n : Int) : IsWord (Decimal.intDigits n) := by
  intro c hc
  cases n with
  | ofNat n => exact endsWord_of_isDigit (Decimal.isDigit_of_mem_digits hc)
  | negSucc n =>
    simp only [Decimal.intDigits, List.mem_cons] at hc
    rcases hc with rfl | hc
    · decide
    · exact endsWord_of_isDigit (Decimal.isDigit_of_mem_digits hc)

theorem intDigits_ne_nil (n : Int) : Decimal.intDigits n ≠ [] := by
  cases n with
  | ofNat n => exact Decimal.digits_ne_nil n
  | negSucc n => simp [Decimal.intDigits]

/-- A number starts with a digit or a minus sign, so it is none of the literal names. -/
theorem word?_intDigits {n : Int} (h : FitsWord n) : word? (Decimal.intDigits n) = some (.int n) := by
  have hhead : ∃ c cs, Decimal.intDigits n = c :: cs ∧ (Decimal.isDigit c = true ∨ c = '-') := by
    cases n with
    | ofNat n =>
      obtain ⟨c, cs, hc, hdigit⟩ := head?_digits_isDigit n
      exact ⟨c, cs, hc, Or.inl hdigit⟩
    | negSucc n => exact ⟨'-', _, rfl, Or.inr rfl⟩
  obtain ⟨c, cs, hc, hclass⟩ := hhead
  have hne : ∀ d : Char, Decimal.isDigit d = false → d ≠ '-' → c ≠ d := by
    rintro d hd hminus rfl
    rcases hclass with h | h
    · exact absurd h (by simp [hd])
    · exact hminus h
  have hn : c ≠ 'n' := hne 'n' (by decide) (by decide)
  have ht : c ≠ 't' := hne 't' (by decide) (by decide)
  have hf : c ≠ 'f' := hne 'f' (by decide) (by decide)
  rw [← number?_intDigits h]
  unfold word?
  rw [hc]
  simp [hn, ht, hf]

theorem scans_intDigits {n : Int} (h : FitsWord n) : Scans (Decimal.intDigits n) [.scalar (.int n)] :=
  scans_word (intDigits_ne_nil n) (isWord_intDigits n) (word?_intDigits h)

end TurtleScript.Json
