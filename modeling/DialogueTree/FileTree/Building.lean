import DialogueTree.FileTree

/-!
# Building a tree path by path

A tree is laid out by putting one item after the other at its path. The paths of
later items may lead through links that were put earlier, and may reach one place
in several ways. So the directories on the way are entered, not only named, and a
file is written where its path leads, even where a link leads to nothing yet.

What cannot be put anywhere leaves the tree as it was.
-/

namespace DialogueTree.FileTree

/-- Enters a directory by its name, through links. It is made if nothing has the
name. -/
def enter (t : FileTree) (here : Place) (part : String) : Option (FileTree × Place) :=
  match t.follow anyDepth Path.linkLimit here [part] with
  | .ok place => if t.item? place = some .directory then some (t, place) else none
  | .error _ =>
    let place := here ++ [part]
    let made := t.put place .directory
    if made.item? place = some .directory then some (made, place) else none

/-- Enters one directory after the other. -/
def enterAll (t : FileTree) (here : Place) (parts : List String) : Option (FileTree × Place) :=
  parts.foldlM (fun (t, here) part => t.enter here part) (t, here)

/-- The place at which the file with a path is, or would be made. Up to so many
times the path may end in a link. -/
def destination? (t : FileTree) : Nat → Place → List String → Option Place
  | 0, _, _ => none
  | n + 1, here, parts => do
    let name ← parts.getLast?
    let parent ← (t.follow anyDepth Path.linkLimit here parts.dropLast).toOption
    match t.item? parent, t.item? (parent ++ [name]) with
    | some .directory, some (.link target) =>
      t.destination? n (startOf parent target) (Path.parts target)
    | some .directory, some (.file _) => some (parent ++ [name])
    | some .directory, none => some (parent ++ [name])
    | _, _ => none

/-- Puts an item at a path below the working directory, and makes the directories
on the way to it. A file takes the place of a file; a directory may be there
already; a link is only put where nothing is. -/
def putAt (t : FileTree) (path : String) (item : Item) : FileTree :=
  let parts := Path.parts path
  match item with
  | .directory => ((t.enterAll t.base parts).map Prod.fst).getD t
  | .link target =>
    match t.enterAll t.base parts.dropLast, parts.getLast? with
    | some (t', here), some name => t'.put (here ++ [name]) (.link target)
    | _, _ => t
  | .file bytes =>
    match t.enterAll t.base parts.dropLast, parts.getLast? with
    | some (t', here), some name =>
      match t'.destination? Path.linkLimit here [name] with
      | some place => t'.write place bytes
      | none => t
    | _, _ => t

end DialogueTree.FileTree
