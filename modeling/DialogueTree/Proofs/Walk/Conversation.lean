import DialogueTree.Proofs.Channel.Sink
import DialogueTree.Proofs.Text.Line
import DialogueTree.Proofs.Walk.Output

/-!
# A console and a script agree

A script and a console are written independently of each other. One hands out inputs from
a list and records lines, the other cuts its inputs out of bytes and puts out bytes. As
long as the writer of the console takes what it is given, and the bytes are those of the
lines of the script, a walk cannot tell them apart.

The invariant is `Mirrors`: what the console has still to read are the bytes of the inputs
that the script has still to give, and the two filters are the same. It is kept by every
answer, so `step_like` makes walks over the two alike. What comes out of the console is
then accounted for step by step.
-/

namespace DialogueTree

/-! ## The two channels side by side -/

section Mirrors

variable {ω : Type} {good : ω → Prop} {output : ω → Bytes} {prompt : String}

/-- A console with a good writer, whose user has still to type the inputs of a script. -/
structure Mirrors (good : ω → Prop) (prompt : String) (s : Script) (c : Console ω) : Prop where
  sink : good c.sink
  prompt : c.prompt = prompt
  filter : c.filter = s.filter
  input : c.input = Text.encodeLines s.inputs
  typeable : ∀ line ∈ s.inputs, Typeable line

/-- What a script records and a console puts out in the same time: the new lines, each with
its line feed, and behind them the prompt if there was a read. -/
structure Exchange (output : ω → Bytes) (prompt : String) (s s' : Script) (c c' : Console ω)
    (new : List String) (asked : Bool) : Prop where
  written : s'.written = s.written ++ new
  reads : s'.reads = s.reads + asked.toNat
  output : output c'.sink
    = output c.sink ++ Text.encodeLines new ++ if asked then Text.encode prompt else []

variable {s s' s'' : Script} {c c' c'' : Console ω}

theorem Exchange.silent (s : Script) (c : Console ω) : Exchange output prompt s s c c [] false :=
  ⟨(List.append_nil _).symm, rfl, by simp [Text.encodeLines]⟩

/-- Lines may be shown before anything is read. -/
theorem Exchange.after {new more : List String} {asked : Bool}
    (hlines : Exchange output prompt s s' c c' new false)
    (h : Exchange output prompt s' s'' c' c'' more asked) :
    Exchange output prompt s s'' c c'' (new ++ more) asked where
  written := by rw [h.written, hlines.written, List.append_assoc]
  reads := by
    rw [h.reads, hlines.reads]
    rfl
  output := by
    rw [h.output, hlines.output, Text.encodeLines_append]
    simp

variable [Writer ω]

/-- Reading puts out the prompt, and answers what the script answers. -/
theorem Mirrors.read (htakes : Writer.Takes good output) (h : Mirrors good prompt s c) :
    s.read.1 = c.read.1 ∧ Mirrors good prompt s.read.2 c.read.2
      ∧ Exchange output prompt s s.read.2 c c.read.2 [] true := by
  obtain ⟨sink', hemit, hgood, houtput⟩ := htakes.emit h.sink (Text.encode c.prompt)
  have hprompt : output sink' = output c.sink ++ Text.encodeLines [] ++ Text.encode prompt := by
    rw [houtput, h.prompt, Text.encodeLines_nil, List.append_nil]
  unfold Script.read Console.read
  rw [hemit]
  dsimp only
  cases hinputs : s.inputs with
  | nil =>
    have hempty : c.input = [] := by rw [h.input, hinputs]; rfl
    rw [hempty]
    exact ⟨rfl, ⟨hgood, h.prompt, h.filter, rfl, nofun⟩, (List.append_nil _).symm, rfl, hprompt⟩
  | cons line rest =>
    have hline : Typeable line := h.typeable line (by rw [hinputs]; exact List.mem_cons_self)
    have hsplit : splitLine c.input
        = (Text.encode line ++ [lineFeed], Text.encodeLines rest) := by
      rw [h.input, hinputs, Text.encodeLines_cons]
      exact splitLine_append (Text.lineFeed_not_mem_encode hline.one) _
    rw [hsplit]
    refine ⟨hline.lineInput.symm, ⟨hgood, h.prompt, h.filter, rfl, ?_⟩,
      (List.append_nil _).symm, rfl, hprompt⟩
    intro other hother
    exact h.typeable other (by rw [hinputs]; exact List.mem_cons_of_mem _ hother)

/-- Writing puts out the line if the script records it, and nothing otherwise. -/
theorem Mirrors.write (htakes : Writer.Takes good output) (h : Mirrors good prompt s c)
    (line : String) :
    (c.write line).1 = .ok () ∧ Mirrors good prompt (s.write line) (c.write line).2
      ∧ ∃ new, Exchange output prompt s (s.write line) c (c.write line).2 new false := by
  by_cases hlast : s.filter.last = some line
  · have hlast' : c.filter.last = some line := by rw [h.filter, hlast]
    rw [Script.write_of_last hlast, Console.write_of_last hlast']
    exact ⟨rfl, h, [], .silent s c⟩
  · have hlast' : c.filter.last ≠ some line := by rwa [h.filter]
    obtain ⟨sink', hemit, hgood, houtput⟩ := htakes.emit h.sink (Text.encode line ++ [lineFeed])
    rw [Script.write_of_ne hlast, Console.write_of_ne hlast', hemit]
    refine ⟨rfl, ⟨hgood, h.prompt, rfl, h.input, h.typeable⟩, [line], List.reverse_cons, rfl, ?_⟩
    rw [houtput]
    simp [Text.encodeLines]

/-- **A console answers what the script answers that it mirrors.** -/
theorem Mirrors.alike (htakes : Writer.Takes good output) :
    Channel.Alike (Mirrors (ω := ω) good prompt) where
  read := by
    intro s c h
    obtain ⟨hanswer, hmirrors, -⟩ := h.read htakes
    exact ⟨hanswer, hmirrors⟩
  write := by
    intro s c line h
    obtain ⟨hanswer, hmirrors, -⟩ := h.write htakes line
    exact ⟨hanswer.symm, hmirrors⟩

theorem Mirrors.writeAll (htakes : Writer.Takes good output) (h : Mirrors good prompt s c)
    (lines : List String) :
    (Channel.writeAll c lines).1 = .ok ()
      ∧ Mirrors good prompt (Channel.writeAll s lines).2 (Channel.writeAll c lines).2
      ∧ ∃ new, Exchange output prompt s (Channel.writeAll s lines).2 c
        (Channel.writeAll c lines).2 new false := by
  induction lines generalizing s c with
  | nil => exact ⟨rfl, h, [], .silent s c⟩
  | cons line rest ih =>
    obtain ⟨hanswer, hmirrors, new, hline⟩ := h.write htakes line
    obtain ⟨hanswers, hrest, more, hlines⟩ := ih hmirrors
    rw [Channel.writeAll_cons_of_ok (c := c) hanswer]
    exact ⟨hanswers, hrest, new ++ more, hline.after hlines⟩

theorem Mirrors.answered (htakes : Writer.Takes good output) (h : Mirrors good prompt s c)
    (node : Node) :
    ∃ asked, Exchange output prompt s (node.answered s) c (node.answered c) [] asked := by
  cases node with
  | directive raw => exact ⟨false, .silent s c⟩
  | dialogue entries => exact ⟨false, .silent s c⟩
  | message text options => exact ⟨true, (h.read htakes).2.2⟩

/-- What passes in a step. -/
theorem Mirrors.step (htakes : Writer.Takes good output) {v : Walker Script}
    {w : Walker (Console ω)} (h : v.Like (Mirrors good prompt) w) :
    ∃ new asked, Exchange output prompt v.channel v.step.walker.channel
      w.channel w.step.walker.channel new asked := by
  cases hnext : v.next? with
  | none =>
    have hnext' : w.next? = none := by rw [← h.next?_eq, hnext]
    rw [Walker.step_of_next?_none hnext, Walker.step_of_next?_none hnext']
    exact ⟨[], false, .silent _ _⟩
  | some node =>
    have hnext' : w.next? = some node := by rw [← h.next?_eq, hnext]
    obtain ⟨hshown, hmirrors, new, hlines⟩ := h.channel.writeAll htakes node.visibleLines
    obtain ⟨asked, hanswered⟩ := hmirrors.answered htakes node
    rw [Walker.step_channel hnext (Script.writeAll_ok _ _), Walker.step_channel hnext' hshown]
    exact ⟨new ++ [], asked, hlines.after hanswered⟩

namespace Walker

/-- A walk at a console that has not begun, whose user is going to type lines. -/
def atConsole (doc : Document) (start : String) (lines : List String) (prompt : String)
    (sink : ω) : Walker (Console ω) :=
  { document := doc, cursor := start, channel := { input := Text.encodeLines lines, sink, prompt } }

/-- **A console and a script agree.** For lines that are read as they are typed, and a writer
that takes what it is given, every step at the console has the same result as the step over
a script of these lines, at the same cursor and in the same phase; also once the lines are
used up. What the console puts out in the step are the lines that the script records in it,
each with a line feed, and behind them the prompt if the script was asked. -/
theorem console_agrees_with_script (htakes : Writer.Takes good output) (sink : ω)
    (hsink : good sink) {lines : List String} (hlines : ∀ line ∈ lines, Typeable line)
    (doc : Document) (start prompt : String) (n : Nat) :
    ((atConsole doc start lines prompt sink).after n).step.result
        = ((scripted doc start lines).after n).step.result
      ∧ ((atConsole doc start lines prompt sink).after n).cursor
        = ((scripted doc start lines).after n).cursor
      ∧ ((atConsole doc start lines prompt sink).after n).phase
        = ((scripted doc start lines).after n).phase
      ∧ ∃ new asked, Exchange output prompt
        ((scripted doc start lines).after n).channel
        ((scripted doc start lines).after (n + 1)).channel
        ((atConsole doc start lines prompt sink).after n).channel
        ((atConsole doc start lines prompt sink).after (n + 1)).channel new asked := by
  have hbegin : (scripted doc start lines).Like (Mirrors good prompt)
      (atConsole doc start lines prompt sink) :=
    ⟨rfl, rfl, rfl, hsink, rfl, rfl, rfl, hlines⟩
  have hlike := after_like (Mirrors.alike htakes) hbegin n
  have hstep := step_like (Mirrors.alike htakes) hlike
  exact ⟨hstep.result.symm, hlike.cursor.symm, hlike.phase.symm, Mirrors.step htakes hlike⟩

/-- At the porch the question is put out, and then the prompt. The walk ends at the porch when
the lines are used up. -/
theorem console_agrees_with_script_porch :
    (∀ line ∈ ["in"], Typeable line)
      ∧ ((atConsole porch.document "porch" ["in"] "? " ({} : Sink)).after 1).channel.sink.output
        = Text.encode "Where to?\n? "
      ∧ ((atConsole porch.document "porch" ["in"] "? " ({} : Sink)).after 2).cursor = "porch"
      ∧ ((atConsole porch.document "porch" ["in"] "? " ({} : Sink)).after 2).step.result
        = .ok .terminated := by
  have hlines : ∀ line ∈ ["in"], Typeable line := by
    intro line hline
    rw [List.mem_singleton.mp hline]
    exact ⟨by decide, by decide⟩
  have hcursor : ((scripted porch.document "porch" ["in"]).after 2).cursor = "porch" := by rfl
  have hlast : ((scripted porch.document "porch" ["in"]).after 2).step.result
      = .ok .terminated := by rfl
  obtain ⟨-, -, -, new, asked, hfirst⟩ := console_agrees_with_script Sink.takes {} ⟨rfl, rfl⟩
    hlines porch.document "porch" "? " 0
  obtain ⟨hresult, hsame, -, -⟩ := console_agrees_with_script Sink.takes {} ⟨rfl, rfl⟩
    hlines porch.document "porch" "? " 2
  have hnew : new = ["Where to?"] := hfirst.written.symm
  have hasked : 1 = asked.toNat := hfirst.reads.trans (Nat.zero_add _)
  cases asked with
  | false => cases hasked
  | true =>
    refine ⟨hlines, ?_, hsame.trans hcursor, hresult.trans hlast⟩
    rw [hfirst.output, hnew]
    decide

end Walker

end Mirrors

end DialogueTree
