-- The type of a file, which follows from the ending of its name: what stands
-- after the last dot, in letters of either case. A file of no known ending is
-- a run of bytes.
import TurtleScript.Text.Caseless
import TurtleScript.Text.Split
import TurtleScript.Web.MediaType.Table

namespace TurtleScript.Web

/-! ## The known types -/

/-- The types with the endings of the names of their files. -/
def mediaTypes : List (String × List String) :=
  (mediumFamilies ++ applicationFamilies ++ vendorFamilies).flatMap fun (front, types) =>
    types.map fun (rest, endings) => (front ++ rest, endings)

/-- The type of the files with an ending. -/
def mediaType? (ending : String) : Option String :=
  (mediaTypes.find? (folded ending ∈ ·.2)).map (·.1)

/-! ## Names -/

/-- The ending of a name after its last dot; a dot at the front does not count. -/
def ending? (name : String) : Option String :=
  match splitAll '.' name.toList with
  | [] | [_] => none
  | [[], _] => none
  | pieces => pieces.getLast?.map String.ofList

/-- The type of a file of a name. -/
def fileType (name : String) : String :=
  ((ending? name).bind mediaType?).getD "application/octet-stream"

end TurtleScript.Web
