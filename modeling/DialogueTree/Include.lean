import DialogueTree.Settings
import DialogueTree.Source
import DialogueTree.Traced

/-!
# Includes

A document may list further documents to be merged into it. An entry of the list
names a directory, and then stands for all files in it that have the extension,
in the order of their names; or it names one file, with the extension added if it
lacks it. Paths are looked up below the root of the shelf, not below the document
that lists them.

An included document has its own includes merged into it before it is merged
itself, and a later document wins over an earlier one. The real places of the documents
that are still being put together form a chain. An include whose place is on the
chain is a cycle. Every other include makes the chain longer by the place of a
file that was not on it, and there are finitely many files, so merging ends.

The system may refuse to list a directory, or to tell the real place of a file. Merging fails
then, at the entry for the one or before the file is told of, but not for the document at the
bottom: its place is only left out of the chain.
-/

namespace DialogueTree

/-- The path that an item of a list of includes is. -/
def Json.readPath : Json → Except NodeFault String
  | .string s => .ok s
  | v => .error (.includeNotPath v)

/-- The paths in a list of includes. The first item that is none is reported. -/
def Json.readPaths : Json → Except NodeFault (List String)
  | .array items => items.mapM readPath
  | _ => .error .includesNotList

/-- The paths that a document lists. The whole list is checked before any of it
is used. -/
def Document.includes (doc : Document) : Except Error (List String) :=
  match doc.get? Reserved.includes with
  | none => .ok []
  | some v => v.readPaths.mapError (.malformedNode Reserved.includes)

namespace FileTree

/-- The files that are not on a chain. -/
def offChain (t : FileTree) (chain : List Place) : List Place :=
  t.files.filter (fun place => !chain.contains place)

/-- Putting a file on the chain leaves fewer files off it. -/
theorem length_offChain_cons_lt {t : FileTree} {chain : List Place} {place : Place}
    (hfile : place ∈ t.files) (hchain : place ∉ chain) :
    (t.offChain (place :: chain)).length < (t.offChain chain).length := by
  have hsub : t.offChain (place :: chain) = (t.offChain chain).filter (· != place) := by
    simp only [offChain, List.filter_filter]
    congr 1
    funext p
    by_cases h : p = place <;> simp [h]
  have hmem : place ∈ t.offChain chain := List.mem_filter.2 ⟨hfile, by simpa using hchain⟩
  rw [hsub]
  exact List.length_filter_lt_length_iff_exists.2 ⟨place, hmem, by simp⟩

end FileTree

/-- What is to be included: a file with a path, or else the files in a directory that is not
listed. -/
inductive Target where
  | file (path : String)
  | unlisted (fault : FileFault)
  deriving Repr, DecidableEq

namespace Shelf

/-- Whether a name ends in a dot and the extension. -/
def hasExtension (s : Shelf) (name : String) : Bool :=
  let extension := s.extension.toList
  extension.isSuffixOf name.toList
    && (name.toList.take (name.length - extension.length)).getLast? == some '.'

/-- The names among some names that have the extension, in order. -/
def namesAmong (s : Shelf) (names : List String) : List String :=
  (Table.ofList ((names.filter s.hasExtension).map fun n => (n, ()))).keys

/-- What an entry of a list stands for. A directory that is not listed stands in its own place. -/
def targets (s : Shelf) (t : FileTree) (entry : String) : List Target :=
  let path := Path.join s.root entry
  if t.isDirectory path then
    match t.list path with
    | .ok names => (s.namesAmong names).map fun name => .file (Path.join path name)
    | .error fault => [.unlisted fault]
  else if s.hasExtension entry then [.file path]
  else [.file (Path.join s.root (entry ++ "." ++ s.extension))]

/-- What a document includes. -/
def includes (s : Shelf) (t : FileTree) (doc : Document) : Except Error (List Target) :=
  doc.includes.map (·.flatMap (s.targets t))

/-- Merges all that a document includes into it. The chain holds the places of the
documents that are still being put together, this one among them. -/
def resolveOn (s : Shelf) (t : FileTree) (chain : List Place) (doc : Document) :
    Traced Document :=
  match s.includes t doc with
  | .error e => .fail e
  | .ok targets =>
    Traced.fold (fun merged target =>
      match target with
      | .unlisted fault => .fail (.refused fault)
      | .file path =>
        if _hfile : t.isFile path = true then
          match _hplace : t.canonical path with
          | .error fault => .fail (.refused fault)
          | .ok place =>
            if _hchain : place ∈ chain then .fail (.includeCycle path)
            else
              .tell (.including path) <|
                match (Source.path path).load t with
                | .error e => .fail e
                | .ok included => (resolveOn s t (place :: chain) included).map merged.merge
        else .fail (.includeNotFound path))
      doc targets
termination_by (t.offChain chain).length
decreasing_by
  exact FileTree.length_offChain_cons_lt
    (FileTree.mem_files_of_canonical (by assumption) (by assumption)) (by assumption)

/-- Merges all that a document includes into it. A document that was read from a path
whose real place is told is on the chain from the beginning. -/
def resolve (s : Shelf) (t : FileTree) (origin : Option String) (doc : Document) :
    Traced Document :=
  s.resolveOn t (origin.bind t.realPlace?).toList doc

end Shelf

namespace Document

/-- Reads a document and merges all that it includes into it. -/
def load (settings : Settings) (t : FileTree) (source : Source) : Traced Document :=
  match source.load t with
  | .error e => .fail e
  | .ok doc => settings.shelf.resolve t source.path? doc

end Document

end DialogueTree
