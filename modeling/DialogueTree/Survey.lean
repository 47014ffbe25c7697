import DialogueTree.Include

/-!
# Which paths matter

A program that runs on a disk cannot know the whole tree of files beforehand. It
starts with the file it was given and looks at every path that a known document
mentions, until nothing new is mentioned.
-/

namespace DialogueTree

/-- The paths at which an entry of a list of includes may be looked up. -/
def Shelf.candidates (s : Shelf) (entry : String) : List String :=
  [Path.join s.root entry, Path.join s.root (entry ++ "." ++ s.extension)]

/-- The paths that the document in a file mentions. -/
def Shelf.mentionedIn (s : Shelf) : Item → List String
  | .file bytes =>
    match (Source.ofBytes bytes none).bind Document.includes with
    | .ok entries => entries.flatMap s.candidates
    | .error _ => []
  | _ => []

/-- The paths that the documents of a tree mention. -/
def Shelf.mentioned (s : Shelf) (t : FileTree) : List String :=
  t.items.flatMap fun e => s.mentionedIn e.2

end DialogueTree
