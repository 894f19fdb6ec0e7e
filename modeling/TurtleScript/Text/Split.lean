-- Cutting text: at the first occurrence of a character, at every occurrence,
-- and into lines that keep their newline. Nothing but the cut character is
-- ever lost, so the pieces join back into the text.

namespace TurtleScript

/-- What stands before and after the first `c`. -/
def splitFirst (c : Char) : List Char → Option (List Char × List Char)
  | [] => none
  | x :: xs =>
    if x = c then some ([], xs) else (splitFirst c xs).map fun (before, after) => (x :: before, after)

/-- The pieces between the occurrences of `c`; one piece if there is none. -/
def splitAll (c : Char) : List Char → List (List Char)
  | [] => [[]]
  | x :: xs =>
    if x = c then [] :: splitAll c xs
    else match splitAll c xs with
      | [] => [[x]]
      | piece :: pieces => (x :: piece) :: pieces

/-- The lines of a text, each with its newline; only the last may have none. -/
def splitLines : List Char → List (List Char)
  | [] => []
  | x :: xs =>
    if x = '\n' then [x] :: splitLines xs
    else match splitLines xs with
      | [] => [[x]]
      | line :: lines => (x :: line) :: lines

/-- The lines of a text, each with its newline. -/
def linesOf (s : String) : List String := (splitLines s.toList).map String.ofList

def joined (texts : List String) : String := texts.foldl (· ++ ·) ""

/-- The texts with `separator` between neighbours. -/
def joinedBy (separator : String) : List String → String
  | [] => ""
  | text :: texts => joined (text :: texts.map (separator ++ ·))

/-! ## Nothing is lost -/

theorem splitFirst_eq_some {c : Char} {cs before after : List Char}
    (h : splitFirst c cs = some (before, after)) : cs = before ++ c :: after := by
  induction cs generalizing before with
  | nil => simp [splitFirst] at h
  | cons x xs ih =>
    rw [splitFirst] at h
    split at h
    · next hx => simp at h; simp [← h.1, ← h.2, hx]
    · simp only [Option.map_eq_some_iff, Prod.exists, Prod.mk.injEq] at h
      obtain ⟨b, a, hb, rfl, rfl⟩ := h
      rw [ih hb]
      rfl

theorem splitFirst_eq_none_iff {c : Char} {cs : List Char} : splitFirst c cs = none ↔ c ∉ cs := by
  induction cs with
  | nil => simp [splitFirst]
  | cons x xs ih =>
    rw [splitFirst]
    by_cases hx : x = c
    · simp [hx]
    · simp [hx, ih, Ne.symm hx]

/-! ## Where it is cut -/

theorem splitFirst_append_cons {c : Char} {xs : List Char} (h : c ∉ xs) (ys : List Char) :
    splitFirst c (xs ++ c :: ys) = some (xs, ys) := by
  induction xs with
  | nil => simp [splitFirst]
  | cons x xs ih =>
    rw [List.mem_cons, not_or] at h
    rw [List.cons_append, splitFirst, if_neg (Ne.symm h.1), ih h.2]
    rfl

theorem splitFirst_append {c : Char} {xs before after : List Char}
    (h : splitFirst c xs = some (before, after)) (ys : List Char) :
    splitFirst c (xs ++ ys) = some (before, after ++ ys) := by
  induction xs generalizing before with
  | nil => cases h
  | cons x xs ih =>
    rw [splitFirst] at h
    rw [List.cons_append, splitFirst]
    split
    · next hx =>
      rw [if_pos hx, Option.some.injEq, Prod.mk.injEq] at h
      rw [← h.1, ← h.2]
    · next hx =>
      rw [if_neg hx, Option.map_eq_some_iff] at h
      obtain ⟨⟨start, rest⟩, hsplit, heq⟩ := h
      obtain ⟨rfl, rfl⟩ := Prod.mk.inj heq
      rw [ih hsplit]
      rfl

/-- What stands before the first `c` is all up to it. -/
theorem takeWhile_ne_eq (c : Char) (cs : List Char) :
    cs.takeWhile (· ≠ c) = ((splitFirst c cs).map Prod.fst).getD cs := by
  induction cs with
  | nil => rfl
  | cons x xs ih =>
    rw [splitFirst]
    by_cases hx : x = c
    · simp [hx]
    · rw [if_neg hx, List.takeWhile_cons_of_pos (by simpa using hx), ih]
      cases splitFirst c xs <;> rfl

theorem splitAll_of_notMem {c : Char} {xs : List Char} (h : c ∉ xs) : splitAll c xs = [xs] := by
  induction xs with
  | nil => rfl
  | cons x xs ih =>
    rw [List.mem_cons, not_or] at h
    rw [splitAll, if_neg (Ne.symm h.1), ih h.2]

/-- What follows without a cut is part of the last piece. -/
theorem exists_splitAll_append (c : Char) (xs : List Char) :
    ∃ pieces last, ∀ ys, c ∉ ys → splitAll c (xs ++ ys) = pieces ++ [last ++ ys] := by
  induction xs with
  | nil => exact ⟨[], [], fun ys hys => splitAll_of_notMem hys⟩
  | cons x xs ih =>
    obtain ⟨pieces, last, hcut⟩ := ih
    by_cases hx : x = c
    · refine ⟨[] :: pieces, last, fun ys hys => ?_⟩
      rw [List.cons_append, splitAll, if_pos hx, hcut ys hys]
      rfl
    · cases pieces with
      | nil =>
        refine ⟨[], x :: last, fun ys hys => ?_⟩
        rw [List.cons_append, splitAll, if_neg hx, hcut ys hys]
        rfl
      | cons piece pieces =>
        refine ⟨(x :: piece) :: pieces, last, fun ys hys => ?_⟩
        rw [List.cons_append, splitAll, if_neg hx, hcut ys hys]
        rfl

end TurtleScript
