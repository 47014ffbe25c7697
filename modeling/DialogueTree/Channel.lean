import DialogueTree.Error
import DialogueTree.Reserved

/-!
# Channels

A walk talks to its user over a channel: it shows lines and reads lines. A channel
answers with the quitting directive once its input is over, and it does not show
a line twice in a row.

A channel is used up by what it cannot do without end: by giving inputs and, where
only so much can be put out, by showing lines. How long that can go on tells an
endless walk from one that is only long, because a walk that is back at a node
without having used up anything goes round for ever.
-/

namespace DialogueTree

/-- Lines out and lines in. -/
class Channel (σ : Type) where
  /-- One line of input, and the channel behind it. -/
  read : σ → String × σ
  /-- Shows a line. Also a channel that failed to show it may have changed. -/
  write : σ → String → Except OutputFault Unit × σ
  /-- At most how often the channel can still do what uses it up. -/
  lifetime : σ → Nat

/-- Shows lines in order, up to the first that fails. -/
def Channel.writeAll {σ : Type} [Channel σ] (c : σ) : List String → Except OutputFault Unit × σ
  | [] => (.ok (), c)
  | line :: rest =>
    match Channel.write c line with
    | (.ok (), c') => writeAll c' rest
    | (.error fault, c') => (.error fault, c')

/-- Remembers the line shown last. -/
structure RepeatFilter where
  last : Option String := none
  deriving Repr, DecidableEq

/-- Whether a line is to be shown. It is from then on the line shown last. -/
def RepeatFilter.accept (f : RepeatFilter) (line : String) : Bool × RepeatFilter :=
  if f.last = some line then (false, f) else (true, ⟨some line⟩)

end DialogueTree
