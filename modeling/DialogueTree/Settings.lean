import DialogueTree.Reserved

/-!
# Settings

What can be chosen about a walk: where it starts, and where included documents
are looked for.
-/

namespace DialogueTree

/-- Where included documents are looked for, and the extension of their names,
without its dot. -/
structure Shelf where
  root : String := "."
  extension : String := Reserved.extension
  deriving Repr, DecidableEq

/-- The choices for a walk. -/
structure Settings where
  start : String := Reserved.start
  shelf : Shelf := {}
  deriving Repr, DecidableEq

namespace Settings

/-- Starts on another node. -/
def withStart (s : Settings) (start : String) : Settings := { s with start }

/-- Takes documents with another extension. -/
def withExtension (s : Settings) (extension : String) : Settings :=
  { s with shelf := { s.shelf with extension } }

/-- Looks for documents below another directory. -/
def withRoot (s : Settings) (root : String) : Settings :=
  { s with shelf := { s.shelf with root } }

end Settings

end DialogueTree
