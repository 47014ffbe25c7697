import DialogueTree.Error
import DialogueTree.Event
import DialogueTree.Reserved
import DialogueTree.Text.Blank

/-!
# Directives

A directive is a line that controls the walk. It is split at blanks; a line whose
words have none of the three known forms does nothing, but is kept as it is for
the warning about it.
-/

namespace DialogueTree

/-- Whether a line is a directive rather than text to show. -/
def isDirective (line : String) : Bool := Reserved.mark.toList.isPrefixOf line.toList

/-- A directive by its form. -/
inductive Directive where
  /-- Ends the walk. -/
  | quit
  /-- Does nothing. -/
  | stay
  /-- Moves the cursor. -/
  | goto (target : String)
  /-- Does nothing, with a warning. -/
  | ignored (raw : String)
  deriving Repr, DecidableEq

/-- Whether a walk goes on. -/
inductive Flow where
  | proceed
  | terminate
  deriving Repr, DecidableEq

namespace Directive

/-- The form of a line. A blank line has none. -/
def parse (raw : String) : Except Error Directive :=
  match (Text.words raw.toList).map String.ofList with
  | [] => .error (.emptyDirective raw)
  | [w] =>
    if w = Reserved.quit then .ok .quit
    else if w = Reserved.stay then .ok .stay
    else .ok (.ignored raw)
  | [w, target] => if w = Reserved.goto then .ok (.goto target) else .ok (.ignored raw)
  | _ => .ok (.ignored raw)

/-- Whether the walk goes on after the directive. -/
def flow : Directive → Flow
  | .quit => .terminate
  | _ => .proceed

/-- Where the cursor is after the directive. -/
def target (d : Directive) (cursor : String) : String :=
  match d with
  | .goto t => t
  | _ => cursor

/-- What is told about the directive. -/
def events (d : Directive) (cursor : String) : List Event :=
  match d with
  | .goto t => [.moved cursor t]
  | .ignored raw => [.ignored raw cursor]
  | _ => []

end Directive

end DialogueTree
