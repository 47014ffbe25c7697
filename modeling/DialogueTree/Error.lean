import DialogueTree.Node.Fault

/-!
# Errors

Everything that can go wrong while a document is put together and walked, by its
cause. Nothing is repaired or tried again.
-/

namespace DialogueTree

/-- Why the system does not do what it is asked at a path. -/
inductive FileFault where
  | missing
  | notDirectory
  | isDirectory
  | nameTooLong
  | tooManyLinks
  | denied
  | nulInPath
  deriving Repr, DecidableEq

/-- The words for a fault, with its number where it has one. -/
def FileFault.message : FileFault → String
  | .missing => "No such file or directory (os error 2)"
  | .notDirectory => "Not a directory (os error 20)"
  | .isDirectory => "Is a directory (os error 21)"
  | .nameTooLong => "File name too long (os error 36)"
  | .tooManyLinks => "Too many levels of symbolic links (os error 40)"
  | .denied => "Permission denied (os error 13)"
  | .nulInPath => "file name contained an unexpected NUL byte"

/-- Why a document cannot be loaded. -/
inductive LoadFault where
  /-- The text is not JSON. Texts that were read from a file are named by its path. -/
  | malformed (path : Option String)
  /-- The text is JSON, but no object. -/
  | notObject (found : Json)
  /-- The reader gave up. -/
  | readFailed
  /-- The file could not be opened or read. -/
  | file (path : String) (fault : FileFault)

/-- The words for a fault. What exactly is wrong with a JSON text is not told. -/
def LoadFault.message : LoadFault → String
  | .malformed none => "<json error>"
  | .malformed (some path) => path ++ ": <json error>"
  | .notObject found => "document root must be an object, found " ++ found.kindName
  | .readFailed => "read failed"
  | .file path fault => path ++ ": " ++ fault.message

/-- Why output could not be put out. -/
inductive OutputFault where
  | writeFailed
  | flushFailed
  deriving Repr, DecidableEq

/-- The words for a fault. -/
def OutputFault.message : OutputFault → String
  | .writeFailed => "write failed"
  | .flushFailed => "flush failed"

/-- An error that ends the assembly of a document, or a step of a walk. -/
inductive Error where
  /-- A document cannot be read. -/
  | load (fault : LoadFault)
  /-- An include names no file. -/
  | includeNotFound (path : String)
  /-- An include leads back to a document that is still being put together. -/
  | includeCycle (path : String)
  /-- The system does not list a directory, or does not tell the real place of a file. -/
  | refused (fault : FileFault)
  /-- The cursor names no entry of the document. -/
  | unknownNode (id : String)
  /-- An entry of the document is not what its place asks for. -/
  | malformedNode (id : String) (fault : NodeFault)
  /-- A directive is blank. -/
  | emptyDirective (raw : String)
  /-- A line could not be put out. -/
  | output (fault : OutputFault)

/-- The text of an error. -/
def Error.message : Error → String
  | .load fault => "failed to load document: " ++ fault.message
  | .includeNotFound path => "cannot find included document: " ++ path
  | .includeCycle path => "include cycle through " ++ path
  | .refused fault => "i/o error: " ++ fault.message
  | .unknownNode id => "failed to find node: " ++ id
  | .malformedNode id fault => "malformed node " ++ id ++ ": " ++ fault.reason
  | .emptyDirective raw => "directive without arguments: " ++ Text.quote raw
  | .output fault => "i/o error: " ++ fault.message

end DialogueTree
