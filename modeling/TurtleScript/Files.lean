-- The files of a working directory as plain data: what reading and writing
-- by path gives, and why a path gives nothing.
import TurtleScript.Text.Split

namespace TurtleScript

/-! ## Faults -/

/-- Why a file cannot be read or written. -/
inductive FileFault where
  | missing
  | notDirectory
  | isDirectory
  | nameTooLong
  | badName
  | other (message : String)
  deriving DecidableEq, Repr

def FileFault.message : FileFault → String
  | missing => "No such file or directory (os error 2)"
  | notDirectory => "Not a directory (os error 20)"
  | isDirectory => "Is a directory (os error 21)"
  | nameTooLong => "File name too long (os error 36)"
  | badName => "file name contained an unexpected NUL byte"
  | other message => message

/-! ## Paths -/

/-- The longest name of a file in bytes. -/
def maxName : Nat := 255

/-- The longest path in bytes. -/
def maxPath : Nat := 4095

/-- Where a path leads: so many directories above the working directory, or none and then down
along some names. -/
structure Place where
  above : Nat
  names : List String
  deriving DecidableEq, Repr

/-- The pieces of a path between its slashes. -/
def pathPieces (path : String) : List String := (splitAll '/' path.toList).map String.ofList

/-- Where a path starts: at the working directory, or above it if it starts with a slash. -/
def pathStart (path : String) : Place := if path.startsWith "/" then ⟨1, []⟩ else ⟨0, []⟩

/-! ## Files -/

/-- The files of a directory with their texts, by path. -/
structure Files where
  entries : List (String × String)
  deriving DecidableEq, Repr

namespace Files

def get? (f : Files) (name : String) : Option String :=
  (f.entries.find? (·.1 = name)).map (·.2)

def isFile (f : Files) (names : List String) : Bool := (f.get? (joinedBy "/" names)).isSome

/-- A directory with files in it. -/
def isDirectory (f : Files) (names : List String) : Bool :=
  names = [] ∨ f.entries.any fun (name, _) =>
    (String.toList name).take ((joinedBy "/" names).length + 1) = (joinedBy "/" names ++ "/").toList

/-- Replaces the text of a file, or adds the file. -/
def put (f : Files) (name text : String) : Files :=
  ⟨(name, text) :: f.entries.filter (·.1 ≠ name)⟩

/-! ## Following a path -/

/-- One piece further on the way along a path. It leads on only from a directory. An empty piece
and a single dot stay there, and two dots lead back. What is above the working directory is not
known, except that it is there. -/
def enter (f : Files) (p : Place) (piece : String) : Except FileFault Place :=
  if p.above = 0 ∧ f.isFile p.names then .error .notDirectory
  else if piece = "" ∨ piece = "." then .ok p
  else if piece = ".." then
    .ok (if p.names = [] then { p with above := p.above + 1 }
      else { p with names := p.names.dropLast })
  else if maxName < piece.utf8ByteSize then .error .nameTooLong
  else
    let names := p.names ++ [piece]
    if p.above = 0 ∧ (f.isFile names ∨ f.isDirectory names) then .ok { p with names }
    else .error .missing

/-- The place at the end of some pieces. -/
def follow (f : Files) (start : Place) (pieces : List String) : Except FileFault Place :=
  pieces.foldlM f.enter start

/-- The path can be asked for at all. -/
def checkPath (path : String) : Except FileFault Unit :=
  if path.toList.contains '\x00' then .error .badName
  else if path = "" then .error .missing
  else if maxPath < path.utf8ByteSize then .error .nameTooLong
  else .ok ()

/-! ## Reading and writing -/

def read (f : Files) (path : String) : Except FileFault String := do
  checkPath path
  let p ← f.follow (pathStart path) (pathPieces path)
  match if p.above = 0 then f.get? (joinedBy "/" p.names) else none with
  | some text => .ok text
  | none => .error .isDirectory

/-- Writes a file. Its directory has to be there. -/
def write (f : Files) (path text : String) : Except FileFault Files := do
  checkPath path
  let pieces := (pathPieces path).filter (· ≠ "")
  let name := pieces.getLast?.getD "."
  let p ← f.follow (pathStart path) (pieces.dropLast ++ [""])
  if name = "." ∨ name = ".." ∨ path.endsWith "/" then .error .isDirectory
  else if maxName < name.utf8ByteSize then .error .nameTooLong
  else if 0 < p.above then .error .missing
  else if f.isDirectory (p.names ++ [name]) then .error .isDirectory
  else .ok (f.put (joinedBy "/" (p.names ++ [name])) text)

end Files

end TurtleScript
