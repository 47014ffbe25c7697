import DialogueTree.Channel
import DialogueTree.Document

/-!
# Walking a document

A walker visits one node in a step. What a visit shows and which directive it ends
with depend on the node and, for a message, on one input; the directive alone
decides where the cursor goes and whether the walk ends.

A step that fails leaves the cursor where it was and the walk running. Nothing is
undone: lines shown before the failure stay shown. A walk that has ended stays as
it is.
-/

namespace DialogueTree

/-- Whether a walk goes on. -/
inductive Phase where
  | running
  | terminated
  deriving Repr, DecidableEq

/-- A document, the name of the node to visit next, and a channel to the user. -/
structure Walker (σ : Type) where
  document : Document
  cursor : String
  channel : σ
  phase : Phase := .running

/-- What a step did: its result, the walker after it, and what it told. -/
structure Step (σ : Type) where
  result : Except Error Phase
  walker : Walker σ
  events : List Event

/-- The lines of a dialogue up to its first directive. -/
def shownLines : List Entry → List String
  | .text line :: rest => line :: shownLines rest
  | _ => []

/-- The first directive of a dialogue. -/
def firstDirective? : List Entry → Option String
  | [] => none
  | .text _ :: rest => firstDirective? rest
  | .directive raw :: _ => some raw

/-- The directive for which an input stands at a message. Quitting and staying are
always there and win over options of the same name. -/
def chosen (options : Table String) (input : String) : String :=
  if input = Reserved.quit then Reserved.quit
  else if input = Reserved.stay then Reserved.stay
  else (options.get? input).getD Reserved.stay

namespace Walker

variable {σ : Type}

/-- A step that fails. -/
def failed (w : Walker σ) (e : Error) (events : List Event) : Step σ := ⟨.error e, w, events⟩

/-- Runs a directive. -/
def obey (w : Walker σ) (raw : String) (events : List Event) : Step σ :=
  match Directive.parse raw with
  | .error e => w.failed e events
  | .ok d =>
    let cursor := d.target w.cursor
    match d.flow with
    | .proceed => ⟨.ok w.phase, { w with cursor }, events ++ d.events w.cursor⟩
    | .terminate =>
      ⟨.ok .terminated, { w with cursor, phase := .terminated },
        events ++ d.events w.cursor ++ [.terminated cursor]⟩

variable [Channel σ]

/-- Shows lines and then does something else, unless a line cannot be shown. -/
def afterShowing (w : Walker σ) (lines : List String) (events : List Event)
    (next : Walker σ → Step σ) : Step σ :=
  match Channel.writeAll w.channel lines with
  | (.ok (), channel) => next { w with channel }
  | (.error fault, channel) => failed { w with channel } (.output fault) events

/-- Reads an input and runs the directive for which it stands. -/
def ask (w : Walker σ) (options : Table String) (events : List Event) : Step σ :=
  let (input, channel) := Channel.read w.channel
  let raw := chosen options input
  obey { w with channel } raw (events ++ [.selected input raw])

/-- Visits a node. -/
def visit (w : Walker σ) (events : List Event) : Node → Step σ
  | .directive raw => w.obey raw events
  | .dialogue entries =>
    w.afterShowing (shownLines entries) events fun w' =>
      match firstDirective? entries with
      | some raw => w'.obey raw events
      | none => ⟨.ok w'.phase, w', events⟩
  | .message prompt options => w.afterShowing [prompt] events fun w' => w'.ask options events

/-- Visits the node under the cursor. -/
def step (w : Walker σ) : Step σ :=
  match w.phase with
  | .terminated => ⟨.ok .terminated, w, []⟩
  | .running =>
    match w.document.node w.cursor with
    | .error e => w.failed e []
    | .ok node => w.visit [.visiting w.cursor] node

end Walker

/-- What several steps did: the result of the last one, if there was one, how many
there were, the walker after them, and what they told. -/
structure Run (σ : Type) where
  result : Option (Except Error Phase)
  steps : Nat
  walker : Walker σ
  events : List Event

namespace Walker

variable {σ : Type} [Channel σ]

/-- Makes up to so many steps, and none after one that fails or finds the walk
terminated. -/
def run : Nat → Walker σ → Run σ
  | 0, w => ⟨none, 0, w, []⟩
  | n + 1, w =>
    let s := w.step
    match s.result with
    | .ok .running =>
      let r := run n s.walker
      ⟨some (r.result.getD s.result), r.steps + 1, r.walker, s.events ++ r.events⟩
    | _ => ⟨some s.result, 1, s.walker, s.events⟩

/-- As many steps decide whether a walk ever fails or terminates: a walk that visits
a node twice and has not used up the channel in between goes on for ever. -/
def bound (w : Walker σ) : Nat := (Channel.lifetime w.channel + 1) * (w.document.size + 1)

/-- Walks until a step fails or terminates the walk. The result is that the walk is
still running only if it is endless. -/
def walk (w : Walker σ) : Run σ := w.run w.bound

end Walker

end DialogueTree
