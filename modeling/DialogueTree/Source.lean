import DialogueTree.Document
import DialogueTree.FileTree
import DialogueTree.Json.Decoder

/-!
# Sources of documents

A document is read from a file, from a text, or from a reader that hands out
bytes. A reader that fails does so behind its bytes. If these are at fault
themselves, or leave an array or object open, that is what is reported. A document
that is complete is not enough, because there might have been more behind it.
-/

namespace DialogueTree

/-- Where a document comes from. -/
inductive Source where
  | path (path : String)
  | text (text : String)
  | reader (bytes : Bytes) (fails : Bool)
  deriving Repr, DecidableEq

namespace Source

/-- A text is taken as a path when it leads to a file, and as a document otherwise. -/
def ofText (t : FileTree) (s : String) : Source := if t.isFile s then .path s else .text s

/-- The path of a source that is one. -/
def path? : Source → Option String
  | .path p => some p
  | _ => none

/-- The document in a byte string. -/
def ofBytes (bytes : Bytes) (path : Option String) : Except Error Document :=
  match Json.decode? bytes with
  | some v => Document.ofJson v
  | none => .error (.load (.malformed path))

/-- Reads the document. -/
def load (t : FileTree) : Source → Except Error Document
  | .path p =>
    match t.read p with
    | .ok bytes => ofBytes bytes (some p)
    | .error fault => .error (.load (.file p fault))
  | .text s => ofBytes (Text.encode s) none
  | .reader bytes false => ofBytes bytes none
  | .reader bytes true =>
    .error (.load (if Json.isBroken bytes then .malformed none else .readFailed))

end Source

end DialogueTree
