import DialogueTree.Channel
import DialogueTree.Text.Utf8

/-!
# Consoles

A channel over bytes: input that is read line by line, and a writer for output, which
may fail whenever bytes are put out or flushed. The writer that is used is a sink. It
takes so many bytes and so many flushes, and fails from then on.

The prompt is put out before a line is taken. If that fails the answer is to quit,
and no input is lost. A line of input ends with its line feed, or with the input.
-/

namespace DialogueTree

/-- Where output goes. -/
class Writer (ω : Type) where
  /-- Puts out bytes. A writer that fails to do so may have put out some of them. -/
  put : ω → Bytes → Except OutputFault Unit × ω
  /-- Flushes what was put out. -/
  flush : ω → Except OutputFault Unit × ω
  /-- At most how often bytes can still be emitted, where there is a bound. -/
  lifetime : ω → Nat

/-- Puts out bytes and flushes them. -/
def Writer.emit {ω : Type} [Writer ω] (s : ω) (bytes : Bytes) : Except OutputFault Unit × ω :=
  match Writer.put s bytes with
  | (.ok (), s') => Writer.flush s'
  | (.error fault, s') => (.error fault, s')

theorem Writer.emit_of_ok {ω : Type} [Writer ω] {s : ω} {bytes : Bytes}
    (h : (Writer.put s bytes).1 = .ok ()) :
    Writer.emit s bytes = Writer.flush (Writer.put s bytes).2 := by
  unfold Writer.emit
  generalize Writer.put s bytes = x at h ⊢
  obtain ⟨answer, s'⟩ := x
  cases h
  rfl

theorem Writer.emit_of_error {ω : Type} [Writer ω] {s : ω} {bytes : Bytes} {fault : OutputFault}
    (h : (Writer.put s bytes).1 = .error fault) :
    Writer.emit s bytes = (.error fault, (Writer.put s bytes).2) := by
  unfold Writer.emit
  generalize Writer.put s bytes = x at h ⊢
  obtain ⟨answer, s'⟩ := x
  cases h
  rfl

/-- A writer with bounds: how many bytes it still takes, how many flushes still
succeed, and what it has taken, the last byte first. Without a number there is no
bound. -/
structure Sink where
  room : Option Nat := none
  flushes : Option Nat := none
  taken : Bytes := []
  deriving Repr, DecidableEq

namespace Sink

/-- What has been put out, in order. -/
def output (s : Sink) : Bytes := s.taken.reverse

/-- Takes bytes, with so much room left behind them. -/
def take (s : Sink) (bytes : Bytes) (room : Option Nat) : Sink :=
  { s with room, taken := bytes.reverse ++ s.taken }

@[simp] theorem output_take (s : Sink) (bytes : Bytes) (room : Option Nat) :
    (s.take bytes room).output = s.output ++ bytes := by
  simp [output, take]

/-- Puts out bytes, as many as there is room for. -/
def put (s : Sink) (bytes : Bytes) : Except OutputFault Unit × Sink :=
  match s.room with
  | none => (.ok (), s.take bytes none)
  | some n =>
    if bytes.length ≤ n then (.ok (), s.take bytes (some (n - bytes.length)))
    else (.error .writeFailed, s.take (bytes.take n) (some 0))

/-- Flushes what was put out. -/
def flush (s : Sink) : Except OutputFault Unit × Sink :=
  match s.flushes with
  | none => (.ok (), s)
  | some 0 => (.error .flushFailed, s)
  | some (n + 1) => (.ok (), { s with flushes := some n })

/-- At most how often bytes can still be emitted, where there is a bound: each time
takes up room, if there is only so much, and a flush, if there are only so many. -/
def lifetime (s : Sink) : Nat := s.room.getD 0 + s.flushes.getD 0

instance : Writer Sink := ⟨put, flush, lifetime⟩

end Sink

/-- The line feed. -/
def lineFeed : UInt8 := 0x0A

/-- The bytes up to the first line feed, with it, and the bytes behind. -/
def splitLine (input : Bytes) : Bytes × Bytes :=
  let line := input.takeWhile (· != lineFeed)
  let rest := input.dropWhile (· != lineFeed)
  (line ++ rest.take 1, rest.drop 1)

/-- A line without the carriage returns and line feeds at its end. -/
def trimLine (line : String) : String :=
  String.ofList (line.toList.reverse.dropWhile (fun c => c == '\r' || c == '\n')).reverse

/-- What a line of input says. A line that is not UTF-8, and the lack of one, says
to quit. -/
def lineInput (line : Bytes) : String :=
  if line.isEmpty then Reserved.quit
  else match Text.decode? line with
    | some s => trimLine s
    | none => Reserved.quit

/-- Input to come, where output goes, and the prompt. -/
structure Console (ω : Type := Sink) where
  input : Bytes
  sink : ω
  prompt : String := ">> "
  filter : RepeatFilter := {}
  deriving Repr, DecidableEq

namespace Console

variable {ω : Type} [Writer ω]

/-- Puts out the prompt and takes a line of input. -/
def read (c : Console ω) : String × Console ω :=
  match Writer.emit c.sink (Text.encode c.prompt) with
  | (.ok (), sink) =>
    (lineInput (splitLine c.input).1, { c with sink, input := (splitLine c.input).2 })
  | (.error _, sink) => (Reserved.quit, { c with sink })

/-- Puts out a line, unless it repeats the one before it. The line counts as the
one before the next even if putting it out fails. -/
def write (c : Console ω) (line : String) : Except OutputFault Unit × Console ω :=
  match c.filter.accept line with
  | (true, filter) =>
    let (result, sink) := Writer.emit c.sink (Text.encode line ++ [lineFeed])
    (result, { c with sink, filter })
  | (false, filter) => (.ok (), { c with filter })

instance : Channel (Console ω) where
  read := read
  write := write
  lifetime c := c.input.length + Writer.lifetime c.sink

/-- A line that repeats the one before it is suppressed. -/
theorem write_of_last {c : Console ω} {line : String} (h : c.filter.last = some line) :
    c.write line = (.ok (), c) := by
  unfold write RepeatFilter.accept
  rw [if_pos h]

/-- Any other line is put out, and remembered even if that fails. -/
theorem write_of_ne {c : Console ω} {line : String} (h : c.filter.last ≠ some line) :
    c.write line = ((Writer.emit c.sink (Text.encode line ++ [lineFeed])).1,
      { c with sink := (Writer.emit c.sink (Text.encode line ++ [lineFeed])).2,
               filter := ⟨some line⟩ }) := by
  unfold write RepeatFilter.accept
  rw [if_neg h]

theorem input_write (c : Console ω) (line : String) : (c.write line).2.input = c.input := by
  unfold write
  split <;> rfl

theorem prompt_write (c : Console ω) (line : String) : (c.write line).2.prompt = c.prompt := by
  unfold write
  split <;> rfl

theorem sink_read (c : Console ω) :
    c.read.2.sink = (Writer.emit c.sink (Text.encode c.prompt)).2 := by
  unfold read
  generalize Writer.emit c.sink (Text.encode c.prompt) = x
  obtain ⟨answer, sink⟩ := x
  cases answer <;> rfl

theorem prompt_read (c : Console ω) : c.read.2.prompt = c.prompt := by
  unfold read
  split <;> rfl

theorem filter_read (c : Console ω) : c.read.2.filter = c.filter := by
  unfold read
  split <;> rfl

end Console

end DialogueTree
