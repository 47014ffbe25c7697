/-!
# Paths

A path is a text whose parts are separated by slashes. Joining puts texts
together and never normalises: what a message shows is what was joined.
-/

namespace DialogueTree.Path

/-- Whether a path starts from the root of the tree. -/
def isAbsolute (path : String) : Bool := path.toList.head? == some '/'

/-- Whether a path needs no slash before a further part. -/
def isOpen (path : String) : Bool :=
  match path.toList.getLast? with
  | none => true
  | some c => c == '/'

/-- A path below another. An absolute path stands for itself. -/
def join (parent path : String) : String :=
  if isAbsolute path then path
  else if isOpen parent then parent ++ path
  else parent ++ "/" ++ path

/-- The parts of a path. A slash at the end asks for a directory, as a final dot
does, and is read as one. -/
def parts (path : String) : List String :=
  let pieces := (path.toList.splitOn '/').filter (!·.isEmpty)
  pieces.map String.ofList ++ (if path.toList.getLast? = some '/' then ["."] else [])

/-- Whether some parts ask that a directory has been come to before they name anything in it.
They do if they go back from it, or if they are dots to the end. -/
def asksDirectory : List String → Bool
  | [] => false
  | part :: rest => part == ".." || (part == "." && (rest.isEmpty || asksDirectory rest))

/-- The length in bytes that a part may have at most. -/
def partLimit : Nat := 255

/-- The length in bytes below which a path that is handed over as a whole has to stay. -/
def lengthLimit : Nat := 4096

/-- How many links may be followed on the way to one file. -/
def linkLimit : Nat := 40

/-- Whether a text can be the name of something in a directory. -/
def isName (s : String) : Bool :=
  s != "" && s != "." && s != ".." && s.utf8ByteSize ≤ partLimit
    && s.toList.all (fun c => c != '/' && c != '\x00')

end DialogueTree.Path
