import DialogueTree.Node

/-!
# Documents

A document is a table from names to the JSON values under them. Nothing is
checked when it is read: an entry is only read as a node when it is asked for, so
an entry that is no node does no harm until then. The reserved key for includes
is an entry like the others.
-/

namespace DialogueTree

/-- Names and the values under them. -/
abbrev Document := Table Json

namespace Document

/-- The document that a value is. -/
def ofJson : Json → Except Error Document
  | .object members => .ok (.ofList members)
  | v => .error (.load (.notObject v))

/-- The node with a name. -/
def node (doc : Document) (id : String) : Except Error Node :=
  match doc.get? id with
  | some raw => Node.classify id raw
  | none => .error (.unknownNode id)

end Document

end DialogueTree
