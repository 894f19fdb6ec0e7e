-- Whole numbers in decimal: the digits of a number, most significant first,
-- and the number that digits stand for. Writing and then reading a number
-- gives it back.

namespace TurtleScript.Decimal

/-- One of the ten ASCII digits. -/
def isDigit (c : Char) : Bool := decide ('0' ≤ c) && decide (c ≤ '9')

/-- The digit for a number below ten. -/
def digitChar (n : Nat) : Char := Char.ofNat (48 + n % 10)

/-- The number a digit stands for. -/
def digitValue (c : Char) : Nat := c.toNat - 48

/-- The decimal digits of a number; zero has one digit. -/
def digits (n : Nat) : List Char :=
  if n < 10 then [digitChar n] else digits (n / 10) ++ [digitChar n]
termination_by n
decreasing_by omega

/-- The number that a row of digits stands for, after the digits read so far. -/
def readDigits (soFar : Nat) (cs : List Char) : Nat :=
  cs.foldl (fun n c => 10 * n + digitValue c) soFar

def text (n : Nat) : String := String.ofList (digits n)

/-- The decimal text of an integer, with a minus sign if it is negative. -/
def intDigits : Int → List Char
  | .ofNat n => digits n
  | .negSucc n => '-' :: digits (n + 1)

/-! ## Writing and reading -/

theorem digitValue_digitChar (n : Nat) : digitValue (digitChar n) = n % 10 := by
  have h : n % 10 < 10 := Nat.mod_lt _ (by decide)
  unfold digitValue digitChar
  generalize n % 10 = d at h
  have : ∀ d < 10, (Char.ofNat (48 + d)).toNat - 48 = d := by decide
  exact this d h

theorem isDigit_digitChar (n : Nat) : isDigit (digitChar n) = true := by
  have h : n % 10 < 10 := Nat.mod_lt _ (by decide)
  unfold digitChar
  generalize n % 10 = d at h
  have : ∀ d < 10, isDigit (Char.ofNat (48 + d)) = true := by decide
  exact this d h

theorem isDigit_of_mem_digits {n : Nat} {c : Char} (h : c ∈ digits n) : isDigit c = true := by
  induction n using digits.induct with
  | case1 n hn =>
    rw [digits, if_pos hn] at h
    simp only [List.mem_singleton] at h
    subst h
    exact isDigit_digitChar n
  | case2 n hn ih =>
    rw [digits, if_neg hn, List.mem_append, List.mem_singleton] at h
    rcases h with h | h
    · exact ih h
    · subst h
      exact isDigit_digitChar n

theorem readDigits_append (soFar : Nat) (xs ys : List Char) :
    readDigits soFar (xs ++ ys) = readDigits (readDigits soFar xs) ys := by
  simp [readDigits, List.foldl_append]

/-- The digits of a number stand for it. -/
theorem readDigits_digits (n : Nat) : readDigits 0 (digits n) = n := by
  induction n using digits.induct with
  | case1 n hn =>
    rw [digits, if_pos hn]
    simp [readDigits, digitValue_digitChar, Nat.mod_eq_of_lt hn]
  | case2 n hn ih =>
    rw [digits, if_neg hn, readDigits_append, ih]
    simp only [readDigits, List.foldl_cons, List.foldl_nil, digitValue_digitChar]
    omega

theorem readDigits_leftpad_digits (width n : Nat) :
    readDigits 0 ((digits n).leftpad width '0') = n := by
  have hzeros : ∀ k, readDigits 0 (List.replicate k '0') = 0 := by
    intro k
    induction k with
    | zero => rfl
    | succ k ih => exact ih
  rw [List.leftpad, readDigits_append, hzeros, readDigits_digits]

theorem digits_ne_nil (n : Nat) : digits n ≠ [] := by
  rw [digits]
  split <;> simp

end TurtleScript.Decimal
