-- From text to tokens. Every character goes into exactly one token, so
-- reading never fails: what is no number, bracket or white space is a word,
-- and the parser decides about words.
import TurtleScript.Decimal.Digits
import TurtleScript.Text.Blank
import TurtleScript.Token

namespace TurtleScript

/-! ## Character classes -/

/-- An opening or closing bracket. -/
def isBracketChar (c : Char) : Bool := c = '[' || c = ']'

/-- A character that a word can hold. -/
def isWordChar (c : Char) : Bool := !isBlank c && !isBracketChar c

/-! ## One token -/

/-- The fraction at the front of a text: a point and at least one digit. -/
def fractionOf : List Char → List Char
  | '.' :: c :: cs => if Decimal.isDigit c then '.' :: c :: cs.takeWhile Decimal.isDigit else []
  | _ => []

/-- The kind of the token that starts with `c`. -/
def kindOf (c : Char) : TokenKind :=
  if c = '[' then .bracketOpen
  else if c = ']' then .bracketClose
  else if isBlank c then .whitespace
  else if Decimal.isDigit c then .number
  else .word

/-- The characters after `c` that belong to the same token, out of those that follow. -/
def restOf (c : Char) (cs : List Char) : List Char :=
  match kindOf c with
  | .bracketOpen | .bracketClose => []
  | .whitespace => cs.takeWhile isBlank
  | .number => cs.takeWhile Decimal.isDigit ++ fractionOf (cs.dropWhile Decimal.isDigit)
  | .word => cs.takeWhile isWordChar

/-! ## All tokens -/

/-- The tokens of a text, and the line that the text ends on. -/
structure Lexed where
  tokens : List Token
  endLine : Nat
  deriving DecidableEq, Repr

/-- A token in front of those that come after it. -/
def Lexed.cons (token : Token) (after : Lexed) : Lexed := ⟨token :: after.tokens, after.endLine⟩

/-- Reads a text whose first character stands on `line`. -/
def lexChars (line : Nat) : List Char → Lexed
  | [] => ⟨[], line⟩
  | c :: cs =>
    let token : Token := ⟨kindOf c, String.ofList (c :: restOf c cs), line⟩
    (lexChars token.endLine (cs.drop (restOf c cs).length)).cons token
termination_by cs => cs.length
decreasing_by simp only [List.length_drop, List.length_cons]; omega

/-- Reads a text whose first character stands on `line`. -/
def lex (text : String) (line : Nat) : Lexed := lexChars line text.toList

@[simp] theorem lexChars_nil (line : Nat) : lexChars line [] = ⟨[], line⟩ := by rw [lexChars]

theorem tokens_lexChars_cons (line : Nat) (c : Char) (cs : List Char) :
    let token : Token := ⟨kindOf c, String.ofList (c :: restOf c cs), line⟩
    (lexChars line (c :: cs)).tokens =
      token :: (lexChars token.endLine (cs.drop (restOf c cs).length)).tokens := by
  rw [lexChars]
  rfl

end TurtleScript
