import DialogueTree.Settings

/-!
# The command line

Arguments are taken from left to right. The first one that does not fit decides
that the arguments are unusable, and the first request for help or for the version
that is reached before decides that nothing else is looked at. Names of options are
never abbreviated, and no option may be repeated.
-/

namespace DialogueTree

/-- The options that take a value. -/
inductive ValueOption where
  | start
  | root
  deriving Repr, DecidableEq

/-- The long name of an option. -/
def ValueOption.name : ValueOption → String
  | .start => "start"
  | .root => "include-root"

/-- Why arguments are unusable. -/
inductive ArgumentFault where
  | unexpected (argument : String)
  | repeated (option : String)
  | noValue (option : String)
  | emptyValue (option : String)
  | unneededValue (option : String)
  | noFile
  deriving Repr, DecidableEq

/-- The words for a fault. -/
def ArgumentFault.message : ArgumentFault → String
  | .unexpected argument => "unexpected argument '" ++ argument ++ "' found"
  | .repeated option => "the option '" ++ option ++ "' cannot be used multiple times"
  | .noValue option => "a value is required for '" ++ option ++ "' but none was supplied"
  | .emptyValue option => "a value is required for '" ++ option ++ "' but it is empty"
  | .unneededValue option => "the option '" ++ option ++ "' takes no value"
  | .noFile => "the argument '<FILE>' was not provided"

/-- What the arguments ask for. -/
inductive Request where
  | help
  | version
  | play (file : String) (settings : Settings) (verbose : Bool)
  deriving Repr, DecidableEq

/-- An argument by its shape. -/
inductive Argument where
  /-- Two dashes: no options follow. -/
  | separator
  /-- Two dashes and a name, and a value if there is an equals sign. -/
  | long (name : String) (value : Option String)
  /-- One dash and letters. -/
  | short (letters : List Char)
  /-- Anything else. A single dash is a value like others. -/
  | plain (value : String)
  deriving Repr, DecidableEq

/-- The shape of an argument. -/
def Argument.ofText (s : String) : Argument :=
  match s.toList with
  | ['-', '-'] => .separator
  | '-' :: '-' :: cs =>
    let name := String.ofList (cs.takeWhile (· != '='))
    match cs.dropWhile (· != '=') with
    | [] => .long name none
    | _ :: value => .long name (some (String.ofList value))
  | '-' :: c :: cs => .short (c :: cs)
  | _ => .plain s

/-- What has been found in the arguments so far. -/
structure Findings where
  file : Option String := none
  start : Option String := none
  root : Option String := none
  verbose : Bool := false
  deriving Repr, DecidableEq

namespace Findings

/-- Takes the file. -/
def addFile (f : Findings) (value : String) : Except ArgumentFault Findings :=
  if f.file.isSome then .error (.unexpected value)
  else if value.isEmpty then .error (.emptyValue "<FILE>")
  else .ok { f with file := some value }

/-- Takes the value of an option. The start may be empty, a directory may not. -/
def addValue (f : Findings) (value : String) : ValueOption → Except ArgumentFault Findings
  | .start =>
    if f.start.isSome then .error (.repeated "--start")
    else .ok { f with start := some value }
  | .root =>
    if f.root.isSome then .error (.repeated "--include-root")
    else if value.isEmpty then .error (.emptyValue "--include-root")
    else .ok { f with root := some value }

/-- Takes the wish for a full log. -/
def addVerbose (f : Findings) : Except ArgumentFault Findings :=
  if f.verbose then .error (.repeated "--verbose") else .ok { f with verbose := true }

/-- What is asked for when all arguments have been taken. -/
def request (f : Findings) : Except ArgumentFault Request :=
  match f.file with
  | none => .error .noFile
  | some file =>
    .ok (.play file
      { start := f.start.getD Reserved.start, shelf := { root := f.root.getD "." } } f.verbose)

/-- Takes arguments behind the separator: files only. -/
def addFiles (f : Findings) : List String → Except ArgumentFault Findings
  | [] => .ok f
  | value :: rest => do addFiles (← f.addFile value) rest

/-- What letters behind one dash lead to. -/
inductive Letters where
  | found (f : Findings)
  | request (r : Request)
  | pending (f : Findings)

/-- The value that stands directly behind a letter, without an equals sign before it. -/
def attached? : List Char → Option String
  | [] => none
  | '=' :: cs => some (String.ofList cs)
  | cs => some (String.ofList cs)

/-- Takes the letters behind one dash. A letter for an option with a value takes
all that is left as its value, or leaves it to the next argument. -/
def addLetters (f : Findings) : List Char → Except ArgumentFault Letters
  | [] => .ok (.found f)
  | 'v' :: cs => do addLetters (← f.addVerbose) cs
  | 'h' :: _ => .ok (.request .help)
  | 'V' :: _ => .ok (.request .version)
  | 's' :: cs =>
    match attached? cs with
    | none => .ok (.pending f)
    | some value => (f.addValue value .start).map .found
  | c :: _ => .error (.unexpected (String.ofList ['-', c]))

/-- Takes arguments. If an option is pending, the next argument is its value and
must not look like an option. -/
def addAll (f : Findings) (pending : Option ValueOption) :
    List String → Except ArgumentFault Request
  | [] =>
    match pending with
    | some o => .error (.noValue o.name)
    | none => f.request
  | s :: rest =>
    match pending, Argument.ofText s with
    | some o, .plain value => do addAll (← f.addValue value o) none rest
    | some o, _ => .error (.noValue o.name)
    | none, .separator => do (← f.addFiles rest).request
    | none, .plain value => do addAll (← f.addFile value) none rest
    | none, .short letters => do
      match ← f.addLetters letters with
      | .found f' => addAll f' none rest
      | .request r => .ok r
      | .pending f' => addAll f' (some .start) rest
    | none, .long name value =>
      if name = "start" then
        match value with
        | some v => do addAll (← f.addValue v .start) none rest
        | none => addAll f (some .start) rest
      else if name = "include-root" then
        match value with
        | some v => do addAll (← f.addValue v .root) none rest
        | none => addAll f (some .root) rest
      else if name = "verbose" ∨ name = "help" ∨ name = "version" then
        if value.isSome then .error (.unneededValue name)
        else if name = "help" then .ok .help
        else if name = "version" then .ok .version
        else do addAll (← f.addVerbose) none rest
      else .error (.unexpected s)

end Findings

/-- What a list of arguments asks for. -/
def Request.ofArguments (arguments : List String) : Except ArgumentFault Request :=
  Findings.addAll {} none arguments

/-! ## Texts -/

/-- Puts a line feed behind every line. -/
def unlines (lines : List String) : String :=
  lines.foldr (fun line rest => line ++ "\n" ++ rest) ""

/-- How the program is used, in one line. -/
def usageLine : String := "Usage: treetalk [OPTIONS] <FILE>"

/-- The name of the program and its version. -/
def versionText : String := unlines ["treetalk 0.1.0"]

/-- How the program is used, at length. -/
def helpText : String := unlines
  ["Walk a TreeTalk dialogue document in the terminal",
   "",
   usageLine,
   "",
   "Arguments:",
   "  <FILE>  Document file to play",
   "",
   "Options:",
   "  -s, --start <START>                Node to start at [default: ::START]",
   "      --include-root <INCLUDE_ROOT>  Directory relative include paths are resolved against [default: .]",
   "  -v, --verbose                      Log node visits and include merges to stderr",
   "  -h, --help                         Print help",
   "  -V, --version                      Print version"]

end DialogueTree
