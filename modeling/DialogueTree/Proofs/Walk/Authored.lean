import DialogueTree.Proofs.Directive.Grammar
import DialogueTree.Proofs.Walk.Abreast
import Mathlib.Tactic.IntervalCases

/-!
# What is authored and what is typed

An input is never run and never shown. All that is done with it is to compare it, with the two
tokens that are there at every message and with the inputs that have an option. So whatever a
user types, a directive that moves the cursor was written into the document, and so was every
line that is shown.

The target of a directive is one of its words. A name that is empty, or that has a blank in it,
is therefore no target; only a walk that begins at such a name is ever there.

Nor is there more in an input than the directive that it stands for. Inputs that stand for the
same directives lead to the same places, and the same lines are shown on the way.
-/

namespace DialogueTree

/-! ## What is written into a document -/

/-- The directives that a visit of a node can run: its own, the first one among the entries of
a dialogue, and those of the options of a message. -/
inductive Node.Runs : Node → String → Prop where
  | own (raw : String) : Runs (.directive raw) raw
  | first {lines : List String} {raw : String} {rest : List Entry} :
      Runs (.dialogue (lines.map .text ++ .directive raw :: rest)) raw
  | option {prompt : String} {options : Table String} {input raw : String} :
      options.get? input = some raw → Runs (.message prompt options) raw

/-- The lines that a visit of a node can show: the texts of a dialogue, and the prompt of a
message. -/
inductive Node.Says : Node → String → Prop where
  | text {entries : List Entry} {line : String} :
      .text line ∈ entries → Says (.dialogue entries) line
  | prompt (prompt : String) (options : Table String) : Says (.message prompt options) prompt

namespace Document

/-- Somewhere in the document there is a directive to go to a target. -/
def SendsTo (doc : Document) (target : String) : Prop :=
  ∃ id node line, doc.node id = .ok node ∧ node.Runs line
    ∧ Directive.parse line = .ok (.goto target)

/-- Somewhere in the document there is a line to show. -/
def Says (doc : Document) (line : String) : Prop :=
  ∃ id node, doc.node id = .ok node ∧ node.Says line

end Document

theorem Node.says_of_mem_visibleLines {node : Node} {line : String}
    (h : line ∈ node.visibleLines) : node.Says line := by
  cases node with
  | directive raw => cases h
  | dialogue entries =>
    obtain ⟨entry, hentry, hline⟩ := List.mem_filterMap.mp h
    have hmem := (List.takeWhile_sublist _).subset hentry
    cases entry with
    | text text =>
      cases hline
      exact .text hmem
    | directive raw => cases hline
  | message prompt options =>
    cases List.mem_singleton.mp h
    exact .prompt _ options

/-- **A directive that moves the cursor is an authored one.** -/
theorem Selects.exists_runs {node : Node} {inputs : List String} {d : Option String}
    {target : String} (h : Selects node inputs d) (hgoto : Means d (.goto target)) :
    ∃ line, node.Runs line ∧ Directive.parse line = .ok (.goto target) := by
  obtain ⟨line, hline, hparse⟩ := hgoto
  -- the two tokens have a meaning of their own
  have hquit : line ≠ Reserved.quit := by
    intro hline
    rw [hline, Directive.parse_quit] at hparse
    cases hparse
  have hstay : line ≠ Reserved.stay := by
    intro hline
    rw [hline, Directive.parse_stay] at hparse
    cases hparse
  refine ⟨line, ?_, hparse⟩
  cases h with
  | directive raw =>
    cases hline
    exact .own _
  | first =>
    cases hline
    exact .first
  | nothing => cases hline
  | quit prompt options => exact absurd (Option.some.inj hline).symm hquit
  | stay prompt options => exact absurd (Option.some.inj hline).symm hstay
  | option _ _ hoption =>
    cases hline
    exact .option hoption
  | other _ _ _ => exact absurd (Option.some.inj hline).symm hstay

theorem Channel.writeAll_keeps {σ : Type} [Channel σ] {P : σ → Prop} {c : σ}
    {lines : List String}
    (hwrite : ∀ line ∈ lines, ∀ c, P c → P (Channel.write c line).2) (h : P c) :
    P (Channel.writeAll c lines).2 := by
  induction lines generalizing c with
  | nil => exact h
  | cons line rest ih =>
    have hfirst : P (Channel.write c line).2 := hwrite line List.mem_cons_self c h
    cases hanswer : (Channel.write c line).1 with
    | ok _ =>
      rw [Channel.writeAll_cons_of_ok hanswer]
      exact ih (fun other hother => hwrite other (List.mem_cons_of_mem _ hother)) hfirst
    | error fault =>
      rw [Channel.writeAll_cons_of_error hanswer]
      exact hfirst

namespace Walker

section Invariants

variable {σ : Type} [Channel σ]

/-! ## Where a walk goes -/

theorem step_cursor (w : Walker σ) :
    w.step.walker.cursor = w.cursor ∨ w.document.SendsTo w.step.walker.cursor := by
  cases hphase : w.phase with
  | terminated =>
    rw [step_terminated hphase]
    exact .inl rfl
  | running =>
    cases hresult : w.step.result with
    | error e =>
      obtain ⟨channel, hkept⟩ := step_error hphase hresult
      rw [hkept]
      exact .inl rfl
    | ok phase =>
      obtain ⟨node, d, hnode, hselects, hfollows⟩ := step_follows hphase hresult
      by_cases hgoto : ∃ target, Means d (.goto target)
      · obtain ⟨target, htarget⟩ := hgoto
        obtain ⟨line, hruns, hparse⟩ := hselects.exists_runs htarget
        rw [hfollows.moves target htarget]
        exact .inr ⟨w.cursor, node, line, hnode, hruns, hparse⟩
      · exact .inl (hfollows.keeps (not_exists.mp hgoto))

/-- **The cursor stays, or is where the document sends it.** -/
theorem after_cursor (w : Walker σ) (m n : Nat) :
    (w.after (m + n)).cursor = (w.after m).cursor
      ∨ w.document.SendsTo (w.after (m + n)).cursor := by
  induction n with
  | zero => exact .inl rfl
  | succ n ih =>
    have hstep := step_cursor (w.after (m + n))
    rw [after_document] at hstep
    rcases hstep with hsame | hsent
    · have hcursor : (w.after (m + (n + 1))).cursor = (w.after (m + n)).cursor := hsame
      rw [hcursor]
      exact ih
    · exact .inr hsent

/-- A place whose name is no word is not left and found again. -/
theorem cursor_of_not_isWord {w : Walker σ} {m n : Nat} (hm : m ≤ n)
    (h : ¬ Text.IsWord (w.after n).cursor) : (w.after m).cursor = (w.after n).cursor := by
  obtain ⟨k, rfl⟩ := Nat.exists_eq_add_of_le hm
  rcases after_cursor w m k with hsame | ⟨id, node, line, -, -, hparse⟩
  · exact hsame.symm
  · exact absurd (Directive.isWord_of_parse hparse) h

/-! ## What a walk shows -/

/-- Once the lines of the node are shown, or some of them, a step only reads. -/
theorem keeps_of_lines {P : σ → Prop} {w : Walker σ} {node : Node} (hnext : w.next? = some node)
    (hread : ∀ c, P c → P (Channel.read c).2)
    (hlines : P (Channel.writeAll w.channel node.visibleLines).2) : P w.step.walker.channel := by
  cases hshown : (Channel.writeAll w.channel node.visibleLines).1 with
  | error fault =>
    rw [step_of_fault hnext hshown]
    exact hlines
  | ok _ =>
    rw [step_channel hnext hshown]
    exact node.answered_keeps hread hlines

/-- What is kept by reads, and by writing a line of the document, is kept by a step. -/
theorem step_keeps {P : σ → Prop} {w : Walker σ} (hread : ∀ c, P c → P (Channel.read c).2)
    (hwrite : ∀ line, w.document.Says line → ∀ c, P c → P (Channel.write c line).2)
    (h : P w.channel) : P w.step.walker.channel := by
  cases hnext : w.next? with
  | none =>
    rw [step_of_next?_none hnext]
    exact h
  | some node =>
    have hnode := (next?_eq_some_iff.mp hnext).2
    refine keeps_of_lines hnext hread (Channel.writeAll_keeps (fun line hline => ?_) h)
    exact hwrite line ⟨w.cursor, node, hnode, node.says_of_mem_visibleLines hline⟩

/-- **Nothing is written but lines of the document.** -/
theorem after_keeps {P : σ → Prop} {w : Walker σ} (hread : ∀ c, P c → P (Channel.read c).2)
    (hwrite : ∀ line, w.document.Says line → ∀ c, P c → P (Channel.write c line).2)
    (h : P w.channel) (n : Nat) : P (w.after n).channel := by
  induction n with
  | zero => exact h
  | succ n ih =>
    refine step_keeps hread ?_ ih
    rw [after_document]
    exact hwrite

end Invariants

end Walker

/-! ## What the two kinds of channels put out -/

/-- A script records only lines of the document. -/
theorem Walker.says_of_mem_written (doc : Document) (start : String) (inputs : List String)
    (n : Nat) : ∀ line ∈ ((scripted doc start inputs).after n).channel.written, doc.Says line := by
  refine after_keeps (P := fun c : Script => ∀ line ∈ c.written, doc.Says line) ?_ ?_ ?_ n
  · intro c h
    show ∀ line ∈ c.read.2.written, doc.Says line
    rw [Script.written_read]
    exact h
  · intro line hsays c h other hother
    rcases Script.mem_written_write hother with rfl | hbefore
    · exact hsays
    · exact h other hbefore
  · intro line hline
    cases hline

section

variable {ω : Type} [Writer ω] {Q : ω → Prop}

theorem Console.read_keeps {c : Console ω}
    (hprompt : ∀ s, Q s → Q (Writer.emit s (Text.encode c.prompt)).2) (h : Q c.sink) :
    Q c.read.2.sink := by
  rw [sink_read]
  exact hprompt c.sink h

theorem Console.write_keeps {c : Console ω} {line : String}
    (hline : ∀ s, Q s → Q (Writer.emit s (Text.encode line ++ [lineFeed])).2) (h : Q c.sink) :
    Q (c.write line).2.sink := by
  by_cases hlast : c.filter.last = some line
  · rw [write_of_last hlast]
    exact h
  · rw [write_of_ne hlast]
    exact hline c.sink h

/-- A console puts out only its prompt and lines of the document. -/
theorem Walker.sink_keeps {w : Walker (Console ω)}
    (hprompt : ∀ s, Q s → Q (Writer.emit s (Text.encode w.channel.prompt)).2)
    (hline : ∀ line, w.document.Says line → ∀ s, Q s →
      Q (Writer.emit s (Text.encode line ++ [lineFeed])).2)
    (h : Q w.channel.sink) (n : Nat) : Q (w.after n).channel.sink := by
  have hkept : Q (w.after n).channel.sink ∧ (w.after n).channel.prompt = w.channel.prompt := by
    refine after_keeps (P := fun c : Console ω => Q c.sink ∧ c.prompt = w.channel.prompt)
      ?_ ?_ ⟨h, rfl⟩ n
    · rintro c ⟨hsink, hsame⟩
      rw [← hsame] at hprompt
      exact ⟨Console.read_keeps hprompt hsink, c.prompt_read.trans hsame⟩
    · rintro line hsays c ⟨hsink, hsame⟩
      exact ⟨Console.write_keeps (hline line hsays) hsink, (c.prompt_write line).trans hsame⟩
  exact hkept.1

end

/-! ## Inputs that stand for the same -/

/-- Two inputs that select the same: both quitting, both the same directive of an option, or
both nothing. -/
def Node.SelectsAlike (node : Node) (input input' : String) : Prop :=
  ∃ d, Selects node [input] d ∧ Selects node [input'] d

theorem Node.selectsAlike_iff {prompt : String} {options : Table String} {input input' : String} :
    (Node.message prompt options).SelectsAlike input input'
      ↔ chosen options input = chosen options input' := by
  have hleft := selects_message prompt options input
  have hright := selects_message prompt options input'
  constructor
  · intro h
    obtain ⟨d, hinput, hinput'⟩ := h
    exact Option.some.inj ((hleft.unique hinput).trans (hinput'.unique hright))
  · intro hsame
    rw [← hsame] at hright
    exact ⟨_, hleft, hright⟩

namespace Script

variable {inputs inputs' : List String} {c d : Script}

/-- Two scripts that have given as many of their inputs, and have recorded the same. -/
structure Paired (inputs inputs' : List String) (c d : Script) : Prop where
  left : c.inputs = inputs.drop c.reads
  right : d.inputs = inputs'.drop c.reads
  reads : d.reads = c.reads
  shown : c.shown = d.shown
  filter : c.filter = d.filter

theorem Paired.write (h : Paired inputs inputs' c d) (line : String) :
    Paired inputs inputs' (c.write line) (d.write line) := by
  obtain ⟨hshown, hfilter⟩ := write_congr h.shown h.filter line
  refine ⟨?_, ?_, ?_, hshown, hfilter⟩
  · rw [inputs_write, reads_write]
    exact h.left
  · rw [inputs_write, reads_write]
    exact h.right
  · rw [reads_write, reads_write]
    exact h.reads

theorem Paired.read (h : Paired inputs inputs' c d) :
    c.read.1 = inputs[c.reads]?.getD Reserved.quit
      ∧ d.read.1 = inputs'[c.reads]?.getD Reserved.quit
      ∧ Paired inputs inputs' c.read.2 d.read.2 := by
  rw [read_eq, read_eq, h.left, h.right, List.headD_eq_head?_getD, List.headD_eq_head?_getD,
    List.head?_drop, List.head?_drop, List.tail_drop, List.tail_drop]
  exact ⟨rfl, rfl, rfl, rfl, congrArg (· + 1) h.reads, h.shown, h.filter⟩

end Script

namespace Walker

/-- A step that reads inputs which select the same leads two walks to the same place. -/
theorem paired_step {inputs inputs' : List String} {w v : Walker Script}
    (hdocument : w.document = v.document) (h : w.Abreast (Script.Paired inputs inputs') v)
    (hselects : ∀ {prompt options}, w.next? = some (.message prompt options) →
      (Node.message prompt options).SelectsAlike
        (inputs[w.channel.reads]?.getD Reserved.quit)
        (inputs'[w.channel.reads]?.getD Reserved.quit)) :
    w.step.walker.Abreast (Script.Paired inputs inputs') v.step.walker := by
  -- lines do not count as reads, so what is read is the input that was asked about
  have hbegin : w.Abreast
      (fun c d => Script.Paired inputs inputs' c d ∧ c.reads = w.channel.reads) v :=
    ⟨h.cursor, h.phase, h.channel, rfl⟩
  obtain ⟨hstep, -⟩ := step_abreast (S := Script.Paired inputs inputs') hbegin
    (by
      intro _
      rw [hdocument])
    (by
      intro c d line hcd
      exact ⟨rfl, hcd.1.write line, (Script.reads_write c line).trans hcd.2⟩)
    (fun _ _ _ hcd => hcd.1)
    (by
      intro prompt options c d hnext _ _ hcd
      obtain ⟨hleft, hright, hread⟩ := hcd.1.read
      refine ⟨?_, hread⟩
      show chosen options c.read.1 = chosen options d.read.1
      rw [hleft, hright, hcd.2]
      exact Node.selectsAlike_iff.mp (hselects hnext))
  exact hstep.walker

/-- Inputs that select the same at every read lead to the same place. -/
theorem paired_after {doc : Document} {start : String} {inputs inputs' : List String} {n : Nat}
    (hselects : ∀ m < n, ∀ {prompt options},
      ((scripted doc start inputs).after m).next? = some (.message prompt options) →
        (Node.message prompt options).SelectsAlike
          (inputs[((scripted doc start inputs).after m).channel.reads]?.getD Reserved.quit)
          (inputs'[((scripted doc start inputs).after m).channel.reads]?.getD Reserved.quit)) :
    ((scripted doc start inputs).after n).Abreast (Script.Paired inputs inputs')
      ((scripted doc start inputs').after n) := by
  induction n with
  | zero => exact ⟨rfl, rfl, rfl, rfl, rfl, rfl, rfl⟩
  | succ n ih =>
    have hbefore := ih fun m hm => hselects m (Nat.lt_succ_of_lt hm)
    refine paired_step ?_ hbefore (hselects n (Nat.lt_succ_self n))
    rw [after_document, after_document]
    rfl

/-- **A user only chooses.** Whatever is read, over whatever channel, the cursor is where it
was at first or where a directive of the document sends it, and if its name is empty or has a
blank in it, it has never been anywhere else. Nothing is written but lines of the document: what
is kept by reads and by writing such lines is kept by the walk. In particular a script has
recorded no others, and to its writer a console has put out no others, but for prompts. Inputs
that at every read select the same lead to the same cursors and phases and to the same lines. -/
theorem input_only_chooses :
    (∀ {σ : Type} [Channel σ] (w : Walker σ) (n : Nat),
      ((w.after n).cursor = w.cursor ∨ w.document.SendsTo (w.after n).cursor)
        ∧ ((w.after n).cursor = "" ∨ (∃ c ∈ (w.after n).cursor.toList, Text.isBlank c = true) →
          ∀ m ≤ n, (w.after m).cursor = w.cursor))
    ∧ (∀ {σ : Type} [Channel σ] (w : Walker σ) (P : σ → Prop),
      (∀ c, P c → P (Channel.read c).2) →
      (∀ line, w.document.Says line → ∀ c, P c → P (Channel.write c line).2) →
      P w.channel → ∀ n, P (w.after n).channel)
    ∧ (∀ (doc : Document) (start : String) (inputs : List String) (n : Nat),
      ∀ line ∈ ((scripted doc start inputs).after n).channel.written, doc.Says line)
    ∧ (∀ {ω : Type} [Writer ω] (w : Walker (Console ω)) (Q : ω → Prop),
      (∀ s, Q s → Q (Writer.emit s (Text.encode w.channel.prompt)).2) →
      (∀ line, w.document.Says line → ∀ s, Q s →
        Q (Writer.emit s (Text.encode line ++ [lineFeed])).2) →
      Q w.channel.sink → ∀ n, Q (w.after n).channel.sink)
    ∧ ∀ (doc : Document) (start : String) (inputs inputs' : List String) (n : Nat),
      (∀ m < n, ∀ {prompt options},
        ((scripted doc start inputs).after m).next? = some (.message prompt options) →
          (Node.message prompt options).SelectsAlike
            (inputs[((scripted doc start inputs).after m).channel.reads]?.getD Reserved.quit)
            (inputs'[((scripted doc start inputs).after m).channel.reads]?.getD Reserved.quit)) →
      ((scripted doc start inputs).after n).cursor = ((scripted doc start inputs').after n).cursor
        ∧ ((scripted doc start inputs).after n).phase = ((scripted doc start inputs').after n).phase
        ∧ ((scripted doc start inputs).after n).channel.written
          = ((scripted doc start inputs').after n).channel.written := by
  refine ⟨?_, fun w P hread hwrite h n => after_keeps hread hwrite h n, says_of_mem_written,
    fun w Q hprompt hline h n => sink_keeps hprompt hline h n, ?_⟩
  · intro σ _ w n
    have hcursor := after_cursor w 0 n
    rw [Nat.zero_add] at hcursor
    refine ⟨hcursor, ?_⟩
    intro hodd m hm
    have hword : ¬ Text.IsWord (w.after n).cursor := by
      intro hword
      rcases hodd with hempty | ⟨c, hc, hblank⟩
      · exact hword.1 hempty
      · rw [hword.2 c hc] at hblank
        cases hblank
    exact (cursor_of_not_isWord hm hword).trans (cursor_of_not_isWord (Nat.zero_le n) hword).symm
  · intro doc start inputs inputs' n hselects
    have hpaired := paired_after hselects
    exact ⟨hpaired.cursor, hpaired.phase, congrArg List.reverse hpaired.channel.shown⟩

/-- What can be ordered at an inn. -/
def menu : Table String := .ofList [("ale", "::GOTO bar"), ("bye", Reserved.quit)]

/-- An inn with a room that nothing leads to. -/
def inn : Document := .ofList [
  ("bar", .array [.string "msg", .string "What will it be?", .object [
    ("ale", .string "::GOTO bar"), ("bye", .string Reserved.quit)]]),
  ("secret", .array [.string "dialogue", .array [.string "How did you get here?"]])]

/-- What one guest asks for. -/
def oneGuest : List String := ["::GOTO secret", "ale", "bye"]

/-- What another guest asks for. -/
def anotherGuest : List String := ["wine", "ale", Reserved.quit]

/-- To ask for the way to the secret room is as good as to ask for what is not on the menu. And
a name without a letter is only there for who begins at it. -/
theorem input_only_chooses_inn :
    (((scripted inn "bar" oneGuest).after 3).cursor
        = ((scripted inn "bar" anotherGuest).after 3).cursor
      ∧ ((scripted inn "bar" oneGuest).after 3).phase = .terminated
      ∧ ((scripted inn "bar" anotherGuest).after 3).phase = .terminated)
    ∧ ((scripted inn " " oneGuest).after 2).cursor = " "
    ∧ ∀ m ≤ 2, ((scripted inn " " oneGuest).after m).cursor = " " := by
  obtain ⟨hcursor, -, -, -, hpairs⟩ := input_only_chooses
  have hselects : ∀ m < 3, ∀ {prompt options},
      ((scripted inn "bar" oneGuest).after m).next? = some (.message prompt options) →
        (Node.message prompt options).SelectsAlike
          (oneGuest[((scripted inn "bar" oneGuest).after m).channel.reads]?.getD Reserved.quit)
          (anotherGuest[((scripted inn "bar" oneGuest).after m).channel.reads]?.getD
            Reserved.quit) := by
    intro m hm prompt options hnext
    have hbar : ((scripted inn "bar" oneGuest).after m).next?
        = some (.message "What will it be?" menu) := by
      interval_cases m <;> rfl
    rw [hbar] at hnext
    cases hnext
    refine Node.selectsAlike_iff.mpr ?_
    interval_cases m <;> rfl
  obtain ⟨hsame, hphase, -⟩ := hpairs inn "bar" oneGuest anotherGuest 3 hselects
  have hend : ((scripted inn "bar" oneGuest).after 3).phase = .terminated := by rfl
  have hstays : ((scripted inn " " oneGuest).after 2).cursor = " " := by rfl
  refine ⟨⟨hsame, hend, hphase.symm.trans hend⟩, hstays, ?_⟩
  exact (hcursor _ 2).2 (.inr ⟨' ', by rw [hstays]; decide, by decide⟩)

end Walker

end DialogueTree
