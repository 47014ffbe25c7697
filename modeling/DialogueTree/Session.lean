import DialogueTree.Channel.Console
import DialogueTree.CommandLine
import DialogueTree.Include
import DialogueTree.Walker

/-!
# A session at the terminal

What the program does as a whole: from its arguments, the files around it and all
that its user will type, to what it prints, what it logs and how it ends. The log
never gets into what is printed.
-/

namespace DialogueTree

/-- How a session ends. -/
inductive Ending where
  | help
  | version
  | badArguments (fault : ArgumentFault)
  | noFile (path : String)
  | failed (e : Error)
  | finished
  | interrupted

namespace Ending

/-- The exit code. -/
def code : Ending → Nat
  | .badArguments _ | .noFile _ | .failed _ => 1
  | _ => 0

/-- What is said about an ending that is an error. -/
def complaint? : Ending → Option String
  | .badArguments fault => some ("error: " ++ fault.message)
  | .noFile path => some ("error: cannot find: " ++ path)
  | .failed e => some ("error: " ++ e.message)
  | _ => none

/-- Whether the usage is shown. -/
def showsUsage : Ending → Bool
  | .badArguments _ | .noFile _ => true
  | _ => false

end Ending

/-- What comes of a session. -/
structure Outcome where
  ending : Ending
  output : Bytes
  events : List Event

namespace Session

/-- Without the wish for a full log only warnings are shown. -/
def isShown (verbose : Bool) (e : Event) : Bool := verbose || e.level == .warn

/-- Whether an event tells of an input. -/
def isSelection : Event → Bool
  | .selected .. => true
  | _ => false

/-- How often a text stands in some bytes. -/
def occurrences (text : Bytes) : Bytes → Nat
  | [] => 0
  | b :: rest => occurrences text rest + if text.isPrefixOf (b :: rest) then 1 else 0

/-- Whether a console waits for a line that has not been typed to its end, and the
text of its prompt has come out so many times, be it as a prompt or in a line. -/
def isStuck (prompts : Nat) (before after : Console) : Bool :=
  !before.input.contains lineFeed
    && prompts ≤ occurrences (Text.encode after.prompt) after.sink.output

/-- Makes up to so many steps, but stops where the walk waits for a line after the
prompt has come out the given number of times. Tells whether it was stopped so. -/
def runToPrompt (prompts : Nat) : Nat → Walker Console → Run Console × Bool
  | 0, w => (⟨none, 0, w, []⟩, false)
  | n + 1, w =>
    let s := w.step
    if s.events.any isSelection && isStuck prompts w.channel s.walker.channel then
      (⟨some s.result, 1, s.walker, s.events.takeWhile (!isSelection ·)⟩, true)
    else
      match s.result with
      | .ok .running =>
        let (r, stopped) := runToPrompt prompts n s.walker
        (⟨some (r.result.getD s.result), r.steps + 1, r.walker, s.events ++ r.events⟩, stopped)
      | _ => (⟨some s.result, 1, s.walker, s.events⟩, false)

/-- The walker with which the document in a file is played, or how the session ends
without one, and what is told before the walk. -/
def prepare (t : FileTree) (file : String) (settings : Settings) (input : Bytes) :
    Except Ending (Walker Console) × List Event :=
  if t.isFile file then
    let loaded := Document.load settings t (.path file)
    match loaded.result with
    | .error e => (.error (.failed e), loaded.events)
    | .ok doc =>
      (.ok { document := doc, cursor := settings.start, channel := { input, sink := {} } },
        loaded.events ++ [.started file doc.size settings.start])
  else (.error (.noFile file), [])

/-- Walks a document on the terminal. If there is an interrupt, it comes after the
prompt has come out so many times, and finds the walk where it waits for a line. -/
def converse (w : Walker Console) (interrupt : Option Nat) : Outcome :=
  let ending (r : Run Console) : Ending :=
    match r.result with
    | some (.error e) => .failed e
    | _ => .finished
  match interrupt with
  | none =>
    let r := w.walk
    ⟨ending r, r.walker.channel.sink.output, r.events⟩
  | some prompts =>
    match runToPrompt prompts w.bound w with
    | (r, true) =>
      ⟨.interrupted, r.walker.channel.sink.output ++ [lineFeed], r.events ++ [.interrupted]⟩
    | (r, false) => ⟨ending r, r.walker.channel.sink.output, r.events⟩

/-- Plays the document in a file. -/
def play (t : FileTree) (file : String) (settings : Settings) (input : Bytes)
    (interrupt : Option Nat) : Outcome :=
  match prepare t file settings input with
  | (.error ending, events) => ⟨ending, [], events⟩
  | (.ok w, events) =>
    let talk := converse w interrupt
    { talk with events := events ++ talk.events }

/-- What comes of a session with the given arguments. -/
def run (t : FileTree) (arguments : List String) (input : Bytes) (interrupt : Option Nat) :
    Outcome :=
  match Request.ofArguments arguments with
  | .error fault => ⟨.badArguments fault, [], []⟩
  | .ok .help => ⟨.help, Text.encode helpText, []⟩
  | .ok .version => ⟨.version, Text.encode versionText, []⟩
  | .ok (.play file settings verbose) =>
    let o := play t file settings input interrupt
    { o with events := o.events.filter (isShown verbose) }

end Session

end DialogueTree
