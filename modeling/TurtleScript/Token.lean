-- Tokens of a script: what was read, how it was written and on which line it
-- started. A token that the parser has taken carries the id of the statement
-- it belongs to.

namespace TurtleScript

/-! ## Tokens -/

inductive TokenKind where
  | word
  | number
  | whitespace
  | bracketOpen
  | bracketClose
  deriving DecidableEq, Repr

/-- A piece of source text with the line it starts on. -/
structure Token where
  kind : TokenKind
  text : String
  line : Nat
  deriving DecidableEq, Repr

/-- How many lines end in a text. -/
def lineBreaks (s : String) : Nat := s.toList.count '\n'

namespace Token

/-- The line the next token starts on. -/
def endLine (t : Token) : Nat := t.line + lineBreaks t.text

def isBlank (t : Token) : Bool := t.kind = .whitespace

def isBracket (t : Token) : Bool := t.kind = .bracketOpen || t.kind = .bracketClose

/-- The token as messages name it. -/
def describe (t : Token) : String :=
  match t.kind with
  | .word => "word `" ++ t.text ++ "`"
  | .number => "number `" ++ t.text ++ "`"
  | .whitespace => "whitespace"
  | .bracketOpen => "`[`"
  | .bracketClose => "`]`"

end Token

/-! ## Taken tokens -/

/-- A token that the parser has taken. Tokens of a statement carry its id; white space
between statements carries none. -/
structure TaggedToken extends Token where
  owner : Option Nat
  deriving DecidableEq, Repr

end TurtleScript
