-- What is typed at the prompt: a line of script, or after a slash a request
-- to the shell. The name of a request may be cut short; of several requests
-- that begin alike the first in the list is meant.
import TurtleScript.Text.Blank
import TurtleScript.Text.Split

namespace TurtleScript

/-! ## Requests -/

/-- What is wanted at the prompt. -/
inductive Request where
  | submit (line : String)
  | undo
  | redo
  | reset
  | rename (name : String)
  | save (path : String)
  | load (path : String)
  | share (fresh : Bool)
  | unshare
  | watch (link : String)
  | unwatch
  | position
  | history
  | help
  | quit
  | incomplete (typed : String)
  | unknown (name : String)
  deriving DecidableEq, Repr

namespace Request

/-- The names of requests in the order in which they are looked up. -/
def names : List String :=
  ["undo", "redo", "reset", "name", "save", "load", "share", "unshare", "watch", "unwatch", "pos",
    "history", "help", "quit"]

/-- The first name that begins as typed, or what was typed. -/
def complete (typed : String) : String :=
  (names.find? fun name => typed.toList.isPrefixOf name.toList).getD typed

/-- A request of a name. Some of them need an argument. -/
def named (typed arg : String) : Request :=
  let withArg (request : Request) : Request := if arg = "" then .incomplete typed else request
  match complete typed with
  | "undo" => .undo
  | "redo" => .redo
  | "reset" => .reset
  | "name" => withArg (.rename arg)
  | "save" => withArg (.save arg)
  | "load" => withArg (.load arg)
  | "share" => .share (arg = "reset")
  | "unshare" => .unshare
  | "watch" => withArg (.watch arg)
  | "unwatch" => .unwatch
  | "pos" => .position
  | "history" => .history
  | "help" | "?" => .help
  | "quit" => .quit
  | other => .unknown other

/-- The request of a typed line. The name ends at the first blank. -/
def ofLine (line : String) : Request :=
  match trimBlanks line.toList with
  | '/' :: cs =>
    match splitFirst ' ' cs with
    | some (name, arg) => named (String.ofList name) (String.ofList (trimBlanks arg))
    | none => named (String.ofList cs) ""
  | _ => .submit (line ++ "\n")

example : ofLine " /un " = .undo := by decide +kernel
example : ofLine "/u" = .undo ∧ ofLine "/uns" = .unshare ∧ ofLine "/" = .undo := by decide +kernel
example : ofLine "/share reset" = .share true ∧ ofLine "/sha" = .share false := by decide +kernel
example : ofLine "/l" = .incomplete "l" ∧ ofLine "/x y" = .unknown "x" := by decide +kernel

end Request

/-! ## Typed lines -/

/-- A line without its end; a carriage return before the newline belongs to the end. -/
def withoutLineEnd (line : List Char) : List Char :=
  match line.reverse with
  | '\n' :: '\r' :: rest => rest.reverse
  | '\n' :: rest => rest.reverse
  | _ => line

/-- The lines of a text as they are typed. -/
def typedLines (s : String) : List String :=
  (splitLines s.toList).map fun line => String.ofList (withoutLineEnd line)

example : typedLines "a\r\nb\n\nc\r" = ["a", "b", "", "c\r"] := by decide +kernel

end TurtleScript
