-- Files of a web client: the path of a request names a file, and the type of
-- the answer follows from the ending of its name. A request may ask for the
-- file only if it is new, or only for a part of it.
import TurtleScript.Files
import TurtleScript.Web.Date
import TurtleScript.Web.MediaType
import TurtleScript.Web.Percent
import TurtleScript.Web.Range
import TurtleScript.Web.Request
import TurtleScript.Web.Response

namespace TurtleScript.Web

/-! ## Files by path -/

/-- A web client: its files, the directory they stand in, and when they were written, in seconds
since the start of 1970. -/
structure Site where
  files : Files
  root : String
  written : Nat
  deriving DecidableEq, Repr

/-- The names on the path of a request. None if it leads outside. -/
def requestedNames? (path : String) : Option (List String) := do
  let decoded ← percentDecoded? (String.ofList (path.toList.dropWhile (· = '/')))
  let pieces := (splitAll '/' decoded.toList).filter fun piece => piece ≠ [] ∧ piece ≠ ['.']
  if decoded.startsWith "/" ∨ ['.', '.'] ∈ pieces then none
  else some (pieces.map String.ofList)

/-- The text of the file at some names, which lead down from the directory of the site. -/
def Site.open? (site : Site) (names : List String) : Except FileFault String := do
  Files.checkPath (joinedBy "/" (site.root :: names))
  let p ← site.files.follow ⟨0, []⟩ names
  match site.files.get? (joinedBy "/" p.names) with
  | some text => .ok text
  | none => .error .isDirectory

/-- The answer if there is no file to serve. -/
def faultAnswer : FileFault → Response
  | .missing | .notDirectory | .badName => .bare 404
  | _ => .bare 500

/-! ## Conditions and parts -/

/-- The answer without the file if it is newer, or not newer, than the request allows. -/
def Site.condition? (site : Site) (r : Request) : Option Response :=
  let since (name : String) := (r.header? name).bind dateSeconds?
  if (since "if-unmodified-since").any (· < site.written) then some (.bare 412)
  else if (since "if-modified-since").any (site.written ≤ ·) then some (.bare 304)
  else none

/-- The ranges that a request asks for. A header with signs beyond ASCII is not read. -/
def rangeHeader? (r : Request) : Option String :=
  (r.header? "range").filter fun value => value.toList.all (·.toNat < 0x80)

/-- The bytes of a file, or the part that a request asks for. Only one part is served. -/
def partAnswer (r : Request) (type : String) (bytes : List UInt8) : Response :=
  match rangeHeader? r with
  | none => .ofType 200 type bytes
  | some header =>
    match ranges? bytes.length header with
    | some [range] => .ofType 206 type (slice range bytes)
    | some _ => .ofType 416 type (textBytes "Cannot serve multipart range requests")
    | none => .ofType 416 type []

/-! ## Answers -/

/-- The file at some names. -/
def Site.fileAnswer (site : Site) (r : Request) (names : List String) : Response :=
  match site.open? names with
  | .error f => faultAnswer f
  | .ok text =>
    match site.condition? r with
    | some answer => answer
    | none => partAnswer r (fileType (names.getLast?.getD "")) (textBytes text)

/-- The file of a request. A directory stands for its index; without a slash at its end the path
of a directory is sent on to the one with it, if that can be written. -/
def Site.served (site : Site) (r : Request) : Response :=
  match requestedNames? r.path with
  | none => .bare 404
  | some names =>
    if !site.files.isDirectory names then site.fileAnswer r names
    else if r.path.endsWith "/" then site.fileAnswer r (names ++ ["index.html"])
    else .bare (if r.target.canGrow then 307 else 500)

def Site.answer (site : Site) (r : Request) : Response :=
  match r.method with
  | "GET" => site.served r
  | "HEAD" => (site.served r).withoutBody
  | _ => .notAllowed "GET,HEAD"

end TurtleScript.Web
