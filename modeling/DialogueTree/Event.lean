/-!
# Events

What happens while documents are merged and walked, as data. An event has one
line of text; whether the line is shown depends on its level alone.
-/

namespace DialogueTree

/-- How much an event matters. -/
inductive Level where
  | debug
  | info
  | warn
  deriving Repr, DecidableEq

/-- The name of a level in a line. -/
def Level.name : Level → String
  | .debug => "DEBUG"
  | .info => "INFO"
  | .warn => "WARN"

/-- Something that happened. -/
inductive Event where
  /-- A document named in a list of includes is about to be read. -/
  | including (path : String)
  /-- A session has its document and is about to walk it. -/
  | started (file : String) (nodes : Nat) (start : String)
  /-- The node under the cursor is about to act. -/
  | visiting (node : String)
  /-- An input was read and stands for a directive. -/
  | selected (input directive : String)
  /-- The cursor moved. -/
  | moved (source target : String)
  /-- A directive has none of the known forms and did nothing. -/
  | ignored (directive node : String)
  /-- The walk has ended at a node. -/
  | terminated (node : String)
  /-- The user broke off the session. -/
  | interrupted
  deriving Repr, DecidableEq

namespace Event

/-- The level of an event. -/
def level : Event → Level
  | .started .. => .info
  | .ignored .. => .warn
  | _ => .debug

/-- What an event says behind its level. -/
def text : Event → String
  | .including path => "including document path=" ++ path
  | .started file nodes start =>
    "starting walk file=" ++ file ++ " nodes=" ++ toString nodes ++ " start=" ++ start
  | .visiting node => "visiting node=" ++ node
  | .selected input directive =>
    "option selected input=" ++ input ++ " directive=" ++ directive
  | .moved source target => "goto from=" ++ source ++ " to=" ++ target
  | .ignored directive node =>
    "ignoring unrecognized directive directive=" ++ directive ++ " node=" ++ node
  | .terminated node => "walk terminated node=" ++ node
  | .interrupted => "interrupted, quitting"

/-- The line of an event. -/
def line (e : Event) : String := e.level.name ++ " " ++ e.text

end Event

end DialogueTree
