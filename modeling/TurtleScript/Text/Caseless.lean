-- Text in which case does not count: each character stands for small letters,
-- as Unicode folds it. A character that folds outside ASCII keeps itself, for
-- texts are folded here only to be looked up among names in ASCII.

namespace TurtleScript

/-- The characters beyond ASCII that fold to letters of ASCII, with these letters. -/
def asciiFoldings : List (Nat × String) :=
  [(0xDF, "ss"), (0x17F, "s"), (0x1E9E, "ss"), (0x212A, "k"), (0xFB00, "ff"), (0xFB01, "fi"),
    (0xFB02, "fl"), (0xFB03, "ffi"), (0xFB04, "ffl"), (0xFB05, "st"), (0xFB06, "st")]

/-- The small letters that a character stands for. -/
def foldedChar (c : Char) : List Char :=
  match asciiFoldings.find? (·.1 = c.toNat) with
  | some (_, letters) => letters.toList
  | none => [c.toLower]

/-- A text in small letters. -/
def folded (s : String) : String := String.ofList (s.toList.flatMap foldedChar)

end TurtleScript
