import DialogueTree.Proofs.Channel.Sink

/-!
# The line that a console remembers

A console remembers a line before it puts the line out. If putting it out fails, the console
remembers a line that did not come out, and when the line is written again it is suppressed:
the answer is that all went well, and the line is lost.

What holds for every writer is that the line remembered is the one that was tried last. So a
line is lost in no other way than this one (`write_ok_lastWhole_iff`). A flush that fails does
no harm, since the line is out by then.

For the proof every call leaves behind what it handed to the writer. Prompts are left out.
-/

namespace DialogueTree

namespace Console

/-- What can be asked of a console. -/
inductive Call where
  | read
  | write (line : String)
  deriving Repr, DecidableEq

/-- A line that was handed to the writer, and whether the writer took the whole of it, the
line feed included. -/
structure Try where
  line : String
  whole : Bool
  deriving Repr, DecidableEq

/-- The last line that was taken as a whole. -/
def lastWhole (tries : List Try) : Option String :=
  (tries.filter Try.whole).getLast?.map Try.line

/-- A line is lost when the writer failed on it the last time that anything was tried, and the
last whole line is not this one. -/
def Lost (tries : List Try) (line : String) : Prop :=
  ∃ before, tries = before ++ [⟨line, false⟩] ∧ lastWhole before ≠ some line

variable {ω : Type} [Writer ω] {c : Console ω} {line : String}

/-- The console behind a call. -/
def call (c : Console ω) : Call → Console ω
  | .read => c.read.2
  | .write line => (c.write line).2

/-- The console behind a sequence of calls. -/
def after (c : Console ω) (calls : List Call) : Console ω := calls.foldl call c

/-- What a call hands to the writer, which is a line that is not suppressed. -/
def tried (c : Console ω) : Call → List Try
  | .read => []
  | .write line =>
    if (c.filter.accept line).1 then
      [⟨line, (Writer.put c.sink (Text.encode line ++ [lineFeed])).1.isOk⟩]
    else []

/-- What a sequence of calls hands to the writer. -/
def tries (c : Console ω) : List Call → List Try
  | [] => []
  | first :: calls => c.tried first ++ (c.call first).tries calls

theorem lastWhole_concat (tries : List Try) (last : Try) :
    lastWhole (tries ++ [last]) = if last.whole then some last.line else lastWhole tries := by
  unfold lastWhole
  cases hwhole : last.whole <;> simp [hwhole]

theorem tries_concat (c : Console ω) (calls : List Call) (last : Call) :
    c.tries (calls ++ [last]) = c.tries calls ++ (c.after calls).tried last := by
  induction calls generalizing c with
  | nil => simp [tries, after]
  | cons first calls ih =>
    rw [List.cons_append, tries, ih, tries, List.append_assoc]
    rfl

theorem after_concat (c : Console ω) (calls : List Call) (last : Call) :
    c.after (calls ++ [last]) = (c.after calls).call last := by
  simp [after]

theorem tried_write_of_last (h : c.filter.last = some line) : c.tried (.write line) = [] := by
  simp [tried, RepeatFilter.accept, h]

theorem tried_write_of_ne (h : c.filter.last ≠ some line) :
    c.tried (.write line)
      = [⟨line, (Writer.put c.sink (Text.encode line ++ [lineFeed])).1.isOk⟩] := by
  simp [tried, RepeatFilter.accept, h]

/-- A line that is tried and shown has been taken as a whole. -/
theorem tried_write_of_ok (hne : c.filter.last ≠ some line)
    (hok : (c.write line).1 = .ok ()) : c.tried (.write line) = [⟨line, true⟩] := by
  rw [tried_write_of_ne hne]
  cases hput : (Writer.put c.sink (Text.encode line ++ [lineFeed])).1 with
  | ok => rfl
  | error fault =>
    rw [write_of_ne hne, Writer.emit_of_error hput] at hok
    cases hok

/-- For a sink, a line is whole exactly if its bytes and the line feed have come out. -/
theorem tried_write_whole_iff {c : Console} (hne : c.filter.last ≠ some line) :
    c.tried (.write line) = [⟨line, true⟩] ↔
      (c.write line).2.sink.output = c.sink.output ++ (Text.encode line ++ [lineFeed]) := by
  rw [tried_write_of_ne hne, write_of_ne hne]
  rcases Sink.put_cases c.sink (Text.encode line ++ [lineFeed]) with
    ⟨room, hput, -⟩ | ⟨n, -, hless, hput⟩
  · rw [Writer.emit_of_ok (by rw [hput]), hput, Sink.output_flush, Sink.output_take]
    exact ⟨fun _ => rfl, fun _ => rfl⟩
  · rw [Writer.emit_of_error (by rw [hput]), hput, Sink.output_take, List.append_cancel_left_eq]
    constructor
    · nofun
    · intro htake
      have hlength := congrArg List.length htake
      rw [List.length_take] at hlength
      omega

/-- The line remembered is the one that was tried last. -/
def Remembers (c : Console ω) (tries : List Try) : Prop :=
  c.filter.last = tries.getLast?.map Try.line

theorem Remembers.call {tries : List Try} (h : c.Remembers tries) (next : Call) :
    (c.call next).Remembers (tries ++ c.tried next) := by
  unfold Remembers at h ⊢
  cases next with
  | read =>
    rw [Console.call, filter_read, h, tried, List.append_nil]
  | write line =>
    by_cases hlast : c.filter.last = some line
    · rw [tried_write_of_last hlast, List.append_nil, ← h, Console.call, write_of_last hlast]
    · rw [tried_write_of_ne hlast, Console.call, write_of_ne hlast]
      simp

theorem Remembers.after {tries : List Try} (h : c.Remembers tries) (calls : List Call) :
    (c.after calls).Remembers (tries ++ c.tries calls) := by
  induction calls generalizing c tries with
  | nil => simpa [Console.after, Console.tries] using h
  | cons first calls ih =>
    have hrest := ih (h.call first)
    rwa [List.append_assoc] at hrest

omit [Writer ω] in
/-- A line that is remembered was tried last. -/
theorem Remembers.exists_last {tries : List Try} (h : c.Remembers tries)
    (hlast : c.filter.last = some line) : ∃ before whole, tries = before ++ [⟨line, whole⟩] := by
  rw [h, Option.map_eq_some_iff] at hlast
  obtain ⟨⟨_, whole⟩, hget, rfl⟩ := hlast
  obtain ⟨before, hbefore⟩ := List.getLast?_eq_some_iff.mp hget
  exact ⟨before, whole, hbefore⟩

omit [Writer ω] in
theorem Remembers.last_of_lost {tries : List Try} (h : c.Remembers tries)
    (hlost : Lost tries line) : c.filter.last = some line := by
  obtain ⟨before, rfl, -⟩ := hlost
  rw [h]
  simp

theorem lost_concat_iff {before : List Try} {last : Try} :
    Lost (before ++ [last]) line ↔ last = ⟨line, false⟩ ∧ lastWhole before ≠ some line := by
  constructor
  · rintro ⟨before', heq, hne⟩
    obtain ⟨rfl, hlast⟩ := List.append_inj' heq rfl
    cases hlast
    exact ⟨rfl, hne⟩
  · rintro ⟨rfl, hne⟩
    exact ⟨before, rfl, hne⟩

/-- The line tried last is the last whole one, unless it is lost. -/
theorem lastWhole_concat_iff {before : List Try} {whole : Bool} :
    lastWhole (before ++ [⟨line, whole⟩]) = some line
      ↔ ¬ Lost (before ++ [⟨line, whole⟩]) line := by
  rw [lost_concat_iff, lastWhole_concat]
  cases whole <;> simp

/-- **A line is lost only to a failure of its own.** Whenever a console that was new shows a
line, the line was the last one to be tried. It is also the last one that was taken as a whole,
unless it is lost; and in that case showing it does nothing at all. -/
theorem write_ok_lastWhole_iff {calls : List Call} (hnew : c.filter.last = none)
    (hok : ((c.after calls).write line).1 = .ok ()) :
    (∃ before whole, c.tries (calls ++ [.write line]) = before ++ [⟨line, whole⟩])
      ∧ (lastWhole (c.tries (calls ++ [.write line])) = some line ↔ ¬ Lost (c.tries calls) line)
      ∧ (Lost (c.tries calls) line → c.after (calls ++ [.write line]) = c.after calls) := by
  have hremembers : (c.after calls).Remembers (c.tries calls) := by
    have hinit : c.Remembers [] := hnew
    exact hinit.after calls
  rw [tries_concat, after_concat, call]
  by_cases hlast : (c.after calls).filter.last = some line
  · -- the line is suppressed, and was tried last before
    obtain ⟨before, whole, htries⟩ := hremembers.exists_last hlast
    rw [tried_write_of_last hlast, List.append_nil, write_of_last hlast, htries]
    exact ⟨⟨before, whole, rfl⟩, lastWhole_concat_iff, fun _ => rfl⟩
  · have hkept : ¬ Lost (c.tries calls) line := mt hremembers.last_of_lost hlast
    rw [tried_write_of_ok hlast hok, lastWhole_concat]
    exact ⟨⟨_, true, rfl⟩, by simpa using hkept, fun hlost => absurd hlost hkept⟩

/-- A line that came out and could not be flushed is not lost. It is suppressed when it is written
again, and rightly. -/
theorem write_ok_lastWhole_iff_unflushed :
    let c : Console := { input := [], sink := { flushes := some 1 } }
    let calls : List Call := [.write "hello", .write "bye"]
    ((c.after calls).write "bye").1 = .ok ()
      ∧ lastWhole (c.tries (calls ++ [.write "bye"])) = some "bye" := by
  intro c calls
  have hok : ((c.after calls).write "bye").1 = .ok () := rfl
  refine ⟨hok, ?_⟩
  obtain ⟨-, hiff, -⟩ := write_ok_lastWhole_iff rfl hok
  have htries : c.tries calls = [⟨"hello", true⟩] ++ [⟨"bye", true⟩] := rfl
  rw [hiff, htries, lost_concat_iff]
  simp

/-- **A lost line.** There is room for the first line alone, so the second one fails. Written
once more it is shown, as the answer says, but nothing has come out behind the first. -/
theorem lost_bye :
    let c : Console := { input := [], sink := { room := some 6 } }
    let calls : List Call := [.write "hello", .write "bye"]
    ((c.after calls).write "bye").1 = .ok ()
      ∧ lastWhole (c.tries (calls ++ [.write "bye"])) = some "hello"
      ∧ (c.after (calls ++ [.write "bye"])).sink.output = Text.encode "hello\n" := by
  exact ⟨rfl, rfl, rfl⟩

end Console

end DialogueTree
