import DialogueTree.Table

/-!
# JSON values

Whole numbers of the 64-bit ranges, signed and unsigned, are kept apart from
floats. The members of an object read from a text are in the order of their keys,
each key once.
-/

namespace DialogueTree

/-- A JSON value. -/
inductive Json where
  | null
  | bool (value : Bool)
  | int (value : Int)
  | float (value : Float)
  | string (value : String)
  | array (items : List Json)
  | object (members : List (String × Json))

instance : Inhabited Json := ⟨.null⟩

namespace Json

/-- The object with the bindings of a table. -/
def ofTable (t : Table Json) : Json := .object t.entries

/-- What a value is, with its article. -/
def kindName : Json → String
  | .null => "null"
  | .bool _ => "a boolean"
  | .int _ => "a number"
  | .float _ => "a number"
  | .string _ => "a string"
  | .array _ => "an array"
  | .object _ => "an object"

end Json

end DialogueTree
