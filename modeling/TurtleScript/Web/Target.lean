-- The target of a request: where it goes. Most targets are a path. Behind a
-- scheme and an authority, as in a full address, there is a path too; an
-- authority on its own has none, and a single star is its own path. The query
-- and the fragment have to be well formed, but no page looks at them.

namespace TurtleScript.Web

/-- Where a request goes. The path of an authority on its own is empty. -/
structure Target where
  scheme : Option String
  authority : Option String
  path : String
  deriving DecidableEq, Repr

/-- The longest target in bytes. -/
def maxTarget : Nat := 65534

/-- The longest scheme. -/
def maxScheme : Nat := 64

/-! ## Characters -/

def isSchemeChar (c : Char) : Bool := c.isAlphanum || "+-.~".toList.contains c

/-- A character of an authority that has no further meaning there. -/
def isHostChar (c : Char) : Bool := c.isAlphanum || "!$&'()*+,-.;=_~".toList.contains c

/-- A visible character of ASCII, or any one beyond ASCII. -/
def isVisible (c : Char) : Bool := 0x20 < c.toNat && c.toNat ≠ 0x7F

def isPathChar (c : Char) : Bool := isVisible c && !"#<>?`".toList.contains c

def isQueryChar (c : Char) : Bool := isVisible c && !"\"#<>".toList.contains c

/-! ## Authorities -/

/-- What has been seen of an authority: its brackets, and colons and a percent sign since its
user or its bracketed address. -/
structure AuthorityScan where
  colons : Nat
  percent : Bool
  opened : Bool
  closed : Bool
  deriving DecidableEq, Repr

/-- The most colons in a row of the same part. -/
def maxColons : Nat := 8

/-- Reads one character of an authority; none if it cannot stand here. An `@` ends the user, and
a closing bracket ends an address: what they hold is settled then. -/
def AuthorityScan.take? (s : AuthorityScan) (c : Char) : Option AuthorityScan :=
  if c = ':' then (if s.colons < maxColons then some { s with colons := s.colons + 1 } else none)
  else if c = '[' then (if s.percent || s.opened then none else some { s with opened := true })
  else if c = ']' then
    if s.opened && !s.closed then some { s with closed := true, colons := 0, percent := false }
    else none
  else if c = '@' then some { s with colons := 0, percent := false }
  else if c = '%' then some { s with percent := true }
  else if isHostChar c then some s
  else none

/-- An authority: a host after the user, at most one colon before its port, brackets in pairs, and
no percent sign but in the user or between brackets. -/
def isAuthority (cs : List Char) : Bool :=
  cs ≠ [] && cs.getLast? ≠ some '@' &&
    match cs.foldlM AuthorityScan.take? ⟨0, false, false, false⟩ with
    | some s => s.opened = s.closed && s.colons ≤ 1 && !s.percent
    | none => false

/-! ## Targets -/

/-- The path of what follows an authority: up to a query or a fragment, and a slash if there is
nothing. -/
def pathOf? (cs : List Char) : Option String :=
  let sent := cs.takeWhile (· ≠ '#')
  let path := sent.takeWhile (· ≠ '?')
  let query := (sent.dropWhile (· ≠ '?')).drop 1
  if path.all isPathChar && query.all isQueryChar then
    some (if path = [] then "/" else String.ofList path)
  else none

/-- The scheme at the front of a full address, and what follows its two slashes. -/
def scheme? (cs : List Char) : Option (List Char × List Char) :=
  match cs.dropWhile isSchemeChar with
  | ':' :: '/' :: '/' :: rest => some (cs.takeWhile isSchemeChar, rest)
  | _ => none

def endsAuthority (c : Char) : Bool := c = '/' || c = '?' || c = '#'

/-- The target that a text stands for. -/
def Target.ofText? (text : String) : Option Target :=
  let cs := text.toList
  if maxTarget < text.utf8ByteSize then none
  else if cs = ['*'] then some ⟨none, none, "*"⟩
  else if cs.head? = some '/' then (pathOf? cs).map fun path => ⟨none, none, path⟩
  else match scheme? cs with
    | some (scheme, rest) =>
      let authority := rest.takeWhile (!endsAuthority ·)
      if maxScheme < scheme.length ∨ !isAuthority authority then none
      else (pathOf? (rest.dropWhile (!endsAuthority ·))).map fun path =>
        ⟨some (String.ofList scheme), some (String.ofList authority), path⟩
    | none => if isAuthority cs then some ⟨none, some text, ""⟩ else none

/-- A longer path can be written in place of the one of this target. Behind an authority that
takes a scheme. -/
def Target.canGrow (t : Target) : Bool := t.authority.isNone || t.scheme.isSome

end TurtleScript.Web
