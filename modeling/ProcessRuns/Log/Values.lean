import ProcessRuns.Failure
import ProcessRuns.Json.Fields
import ProcessRuns.Json.Reader
import ProcessRuns.Json.Writer

/-! # The values of an execution

A run may note values under tags. They are kept as the text of one JSON object, whose members are lists. -/

namespace ProcessRuns.Values

/-- The object that a text holds; a text that holds another value counts as empty. -/
def object (data : Option String) : Except Failure (Dictionary Json) :=
  match data with
  | none => .ok []
  | some text =>
    if text.isEmpty then .ok []
    else
      match (Json.Document.read? text).bind (·.toJson?) with
      | some (.object members) => .ok members
      | some _ => .ok []
      | none => .error .malformedData

/-- The list under a tag; anything else under it counts as no list. -/
def listed (members : Dictionary Json) (tag : String) : List Json :=
  match members.get? tag with
  | some (.array items) => items
  | _ => []

/-- Puts a value at the end of the list under a tag. -/
def append (data : Option String) (tag value : String) : Except Failure String := do
  let members ← object data
  return (Json.object (members.set tag (.array (listed members tag ++ [.text value])))).toText

/-- The lists of texts under their tags. -/
def read (data : Option String) : Except Failure (Dictionary (List String)) :=
  match data with
  | none => .ok []
  | some text =>
    if text.isEmpty then .ok []
    else
      match (Json.Document.read? text).bind (·.toDictionary? (·.toList? (·.toText?))) with
      | some values => .ok values
      | none => .error .malformedData

end ProcessRuns.Values
