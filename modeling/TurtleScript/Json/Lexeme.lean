-- The lexemes of JSON text: punctuation, strings and other scalars, with
-- white space dropped. One character at a time changes what is being read, so
-- cutting a text anywhere and going on with the rest is the same as reading
-- the whole. A string with half a code point in it is a lexeme without a
-- value.
import TurtleScript.Json.Number

namespace TurtleScript.Json

/-! ## Lexemes -/

/-- The smallest meaningful pieces of JSON text. A string has no value if half a code point
stands alone in it. -/
inductive Lexeme where
  | arrOpen
  | arrClose
  | objOpen
  | objClose
  | colon
  | comma
  | string (value : Option String)
  | scalar (value : Json)

/-- The lexeme of a punctuation character. -/
def punctuation? : Char → Option Lexeme
  | '[' => some .arrOpen
  | ']' => some .arrClose
  | '\x7b' => some .objOpen
  | '\x7d' => some .objClose
  | ':' => some .colon
  | ',' => some .comma
  | _ => none

/-- White space between lexemes. -/
def isGap (c : Char) : Bool := c = ' ' || c = '\t' || c = '\n' || c = '\r'

/-- The value of a run of characters outside strings: a literal name or a number. -/
def word? (cs : List Char) : Option Json :=
  if cs = ['n', 'u', 'l', 'l'] then some .null
  else if cs = ['t', 'r', 'u', 'e'] then some (.bool true)
  else if cs = ['f', 'a', 'l', 's', 'e'] then some (.bool false)
  else number? cs

/-! ## Escapes -/

/-- The character that a one-letter escape stands for. -/
def escaped? : Char → Option Char
  | '"' => some '"'
  | '\\' => some '\\'
  | '/' => some '/'
  | 'b' => some '\x08'
  | 'f' => some '\x0c'
  | 'n' => some '\n'
  | 'r' => some '\r'
  | 't' => some '\t'
  | _ => none

def hexValue? (c : Char) : Option Nat :=
  if '0' ≤ c ∧ c ≤ '9' then some (c.toNat - 48)
  else if 'a' ≤ c ∧ c ≤ 'f' then some (c.toNat - 87)
  else if 'A' ≤ c ∧ c ≤ 'F' then some (c.toNat - 55)
  else none

/-- The first half of a code point above 0xFFFF. -/
def isHighHalf (n : Nat) : Bool := decide (0xD800 ≤ n) && decide (n ≤ 0xDBFF)

/-- The second half of a code point above 0xFFFF. -/
def isLowHalf (n : Nat) : Bool := decide (0xDC00 ≤ n) && decide (n ≤ 0xDFFF)

/-! ## One character at a time -/

/-- The characters of a string so far, last first; none once half a code point stands alone. -/
abbrev Reading := Option (List Char)

/-- A further character of a string. -/
def Reading.push (read : Reading) (c : Char) : Reading := read.map (c :: ·)

/-- What is being read. The characters of a word come last first. A string may be in the middle
of an escape: after the backslash, among four hexadecimal digits, or between the two halves of
a code point. -/
inductive Mode where
  | between
  | word (read : List Char)
  | inString (read : Reading)
  | escape (read : Reading)
  | hex (read : Reading) (high : Option Nat) (left : Nat) (value : Nat)
  | half (read : Reading) (high : Nat)
  | halfEscape (read : Reading) (high : Nat)

/-- The lexemes so far, last first, and what is being read. -/
structure Scan where
  done : List Lexeme
  mode : Mode

/-- A character between lexemes starts the next one. -/
def startLexeme (done : List Lexeme) (c : Char) : Scan :=
  if isGap c then ⟨done, .between⟩
  else if c = '"' then ⟨done, .inString (some [])⟩
  else match punctuation? c with
    | some lexeme => ⟨lexeme :: done, .between⟩
    | none => ⟨done, .word [c]⟩

/-- A character that a word cannot hold. -/
def endsWord (c : Char) : Bool := isGap c || c = '"' || (punctuation? c).isSome

/-- A character inside a string. -/
def Reading.take? (read : Reading) (done : List Lexeme) (c : Char) : Option Scan :=
  if c = '"' then some ⟨.string (read.map fun cs => String.ofList cs.reverse) :: done, .between⟩
  else if c = '\\' then some ⟨done, .escape read⟩
  else if c.toNat < 0x20 then none
  else some ⟨done, .inString (read.push c)⟩

/-- A character after a backslash. -/
def Reading.takeEscape? (read : Reading) (done : List Lexeme) (c : Char) : Option Scan :=
  if c = 'u' then some ⟨done, .hex read none 3 0⟩
  else (escaped? c).map fun e => ⟨done, .inString (read.push e)⟩

/-- The string after four hexadecimal digits: a character, or the first half of one. -/
def Reading.afterHex (read : Reading) (high : Option Nat) (value : Nat) : Mode :=
  match high with
  | none =>
    if isHighHalf value then .half read value
    else if isLowHalf value then .inString none
    else .inString (read.push (Char.ofNat value))
  | some first =>
    if isLowHalf value then
      .inString (read.push (Char.ofNat (0x10000 + (first - 0xD800) * 0x400 + (value - 0xDC00))))
    else .inString none

/-- Reads one character; none if it cannot stand here. -/
def Scan.take? (s : Scan) (c : Char) : Option Scan :=
  match s.mode with
  | .between => some (startLexeme s.done c)
  | .word read =>
    if endsWord c then (word? read.reverse).map fun value => startLexeme (.scalar value :: s.done) c
    else some ⟨s.done, .word (c :: read)⟩
  | .inString read => read.take? s.done c
  | .escape read => read.takeEscape? s.done c
  | .hex read high left value =>
    match hexValue? c, left with
    | none, _ => none
    | some d, 0 => some ⟨s.done, read.afterHex high (16 * value + d)⟩
    | some d, left + 1 => some ⟨s.done, .hex read high left (16 * value + d)⟩
  | .half read high =>
    if c = '\\' then some ⟨s.done, .halfEscape read high⟩ else Reading.take? none s.done c
  | .halfEscape read high =>
    if c = 'u' then some ⟨s.done, .hex read (some high) 3 0⟩ else Reading.takeEscape? none s.done c

/-- The lexemes at the end of the text; none if a string is still open. -/
def Scan.finish? (s : Scan) : Option (List Lexeme) :=
  match s.mode with
  | .between => some s.done.reverse
  | .word read => (word? read.reverse).map fun value => (Lexeme.scalar value :: s.done).reverse
  | _ => none

/-- The lexemes of a text. -/
def lexemes? (cs : List Char) : Option (List Lexeme) :=
  (cs.foldlM Scan.take? ⟨[], .between⟩).bind Scan.finish?

end TurtleScript.Json
