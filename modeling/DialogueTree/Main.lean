import DialogueTree.Session
import DialogueTree.Survey

/-!
# The program

Looks at the disk, talks to the terminal, and leaves every decision to the library.
-/

namespace DialogueTree.Main

/-- The text of a place. -/
def placeText (place : Place) : String := "/" ++ String.intercalate "/" place

/-- Looks at one name in a directory of the disk. A name that leads elsewhere is
taken for a link to where it leads, a file that cannot be read is locked, and what cannot be
looked at is taken for missing. -/
def lookAt (t : FileTree) (here : Place) (name : String) : IO (FileTree × Option Place) := do
  try
    let real := Path.parts (← IO.FS.realPath (placeText (here ++ [name]))).toString
    let t := if real = here ++ [name] then t else t.put (here ++ [name]) (.link (placeText real))
    let t := t.putDirectories real.dropLast
    match (← (← IO.FS.realPath (placeText real)).metadata).type with
    | .dir => return (t.putDirectories real, some real)
    | .file =>
      try
        let bytes ← IO.FS.readBinFile (placeText real)
        return (t.put real (.file bytes.data.toList), some real)
      catch _ => return ((t.put real (.file [])).lock real, some real)
    | _ => return (t, none)
  catch _ => return (t, none)

/-- Looks at the parts of a path from a directory of the disk. -/
def lookAlong (t : FileTree) (here : Place) : List String → IO (FileTree × Option Place)
  | [] => return (t, some here)
  | "." :: rest => lookAlong t here rest
  | ".." :: rest => lookAlong t here.dropLast rest
  | name :: rest => do
    match ← lookAt t here name with
    | (t, some next) => lookAlong t next rest
    | (t, none) => return (t, none)

/-- Looks at a path of the disk, and in a directory at the names with the extension. A directory
that does not list its names is locked. -/
def look (s : Shelf) (t : FileTree) (path : String) : IO FileTree := do
  let start := if Path.isAbsolute path then [] else t.base
  let (t, found) ← lookAlong t start (Path.parts path)
  match found with
  | none => return t
  | some place =>
    if t.item? place != some .directory then return t
    try
      let mut t := t
      for entry in ← (← IO.FS.realPath (placeText place)).readDir do
        if s.hasExtension entry.fileName then
          t := (← lookAt t place entry.fileName).1
      return t
    catch _ => return t.lock place

/-- Looks at paths of the disk, and at all that they mention. -/
partial def survey (s : Shelf) (t : FileTree) (seen : List String) : List String → IO FileTree
  | [] =>
    match (s.mentioned t).eraseDups.filter (fun path => !seen.contains path) with
    | [] => return t
    | paths => survey s t seen paths
  | path :: rest => do survey s (← look s t path) (path :: seen) rest

/-- Takes one line of bytes. -/
partial def readLine (input : IO.FS.Stream) (read : ByteArray) : IO ByteArray := do
  let b ← input.read 1
  if b.isEmpty then return read
  let read := read ++ b
  if b.data.contains lineFeed then return read else readLine input read

/-- Writes the events that are to be shown. -/
def log (verbose : Bool) (events : List Event) : IO Unit :=
  for e in events.filter (Session.isShown verbose) do IO.eprintln e.line

/-- Prints what has come out of a console. -/
def print (w : Walker Console) : IO (Walker Console) := do
  let out ← IO.getStdout
  out.write ⟨w.channel.sink.output.toArray⟩
  out.flush
  return { w with channel := { w.channel with sink := {} } }

/-- Says how a session ends. -/
def close (ending : Ending) : IO UInt32 := do
  if let some text := ending.complaint? then IO.eprintln text
  if ending.showsUsage then IO.eprintln usageLine
  return ending.code.toUInt32

/-- Walks step by step. A step that asks for input is first made without any, which
puts out its prompt, and then again with the line that the user gives. -/
partial def talk (verbose : Bool) (w : Walker Console) : IO UInt32 := do
  let dry := w.step
  let shown ← print dry.walker
  let s ← if dry.events.any Session.isSelection then do
      let line ← readLine (← IO.getStdin) .empty
      let s := { w with channel := { w.channel with input := line.data.toList } }.step
      pure { s with walker := { s.walker with channel := { shown.channel with input := [] } } }
    else pure { dry with walker := shown }
  log verbose s.events
  match s.result with
  | .ok .running => talk verbose s.walker
  | .ok .terminated => close .finished
  | .error e => close (.failed e)

/-- Plays the document in a file. -/
def play (file : String) (settings : Settings) (verbose : Bool) : IO UInt32 := do
  let base := Path.parts (← IO.currentDir).toString
  let t ← survey settings.shelf (.workingAt base) [] [file, settings.shelf.root]
  let (w, events) := Session.prepare t file settings []
  log verbose events
  match w with
  | .ok w => talk verbose w
  | .error ending => close ending

end DialogueTree.Main

/-- Runs the program. -/
def main (arguments : List String) : IO UInt32 :=
  match DialogueTree.Request.ofArguments arguments with
  | .ok .help => do IO.print DialogueTree.helpText; return 0
  | .ok .version => do IO.print DialogueTree.versionText; return 0
  | .ok (.play file settings verbose) => DialogueTree.Main.play file settings verbose
  | .error fault => DialogueTree.Main.close (.badArguments fault)
