import DialogueTree.Proofs.Channel.Remembered
import DialogueTree.Proofs.Text.Line
import Mathlib.Data.List.TakeWhile

/-!
# Input is split without loss

A console cuts its input into lines (`Lines`). Each read that gets past the prompt takes one of
them, and nothing else does: not a read whose prompt cannot be put out, and not a write, however
these end. So the lines are handed out one by one and in order, each just once, and whether a line
can be understood does not matter for the lines behind it.

The invariant is kept in the same form: what is left to read are the lines that were not handed
out (`Console.after_takes`).
-/

namespace DialogueTree

/-- The lines of an input, each with its line feed. What comes behind the last line feed is a line
as well, if there is anything. -/
inductive Lines : Bytes → List Bytes → Prop where
  | nothing : Lines [] []
  | rest {line : Bytes} : line ≠ [] → lineFeed ∉ line → Lines line [line]
  | next {line behind : Bytes} {lines : List Bytes} : lineFeed ∉ line → Lines behind lines →
      Lines (line ++ lineFeed :: behind) ((line ++ [lineFeed]) :: lines)

namespace Lines

variable {input : Bytes} {lines : List Bytes}

/-- **Nothing of the input is left out.** -/
theorem flatten (h : Lines input lines) : lines.flatten = input := by
  induction h with
  | nothing => rfl
  | rest _ _ => simp
  | next _ _ ih => simp [ih]

theorem exists_lines (input : Bytes) : ∃ lines, Lines input lines := by
  induction input with
  | nil => exact ⟨[], .nothing⟩
  | cons b input ih =>
    obtain ⟨lines, h⟩ := ih
    by_cases hfeed : b = lineFeed
    · subst hfeed
      exact ⟨_, .next List.not_mem_nil h⟩
    · -- the byte goes in front of the first line
      have hmore {bytes : Bytes} (hbytes : lineFeed ∉ bytes) : lineFeed ∉ b :: bytes :=
        List.not_mem_cons_of_ne_of_not_mem (Ne.symm hfeed) hbytes
      cases h with
      | nothing => exact ⟨_, .rest (List.cons_ne_nil b []) (hmore List.not_mem_nil)⟩
      | rest _ hline => exact ⟨_, .rest (List.cons_ne_nil b _) (hmore hline)⟩
      | next hline hbehind => exact ⟨_, .next (hmore hline) hbehind⟩

theorem nil_of_nil (h : Lines input []) : input = [] := by
  cases h
  rfl

/-- The first line is cut off, and the others are left. -/
theorem splitLine_eq {line : Bytes} (h : Lines input (line :: lines)) :
    line ≠ [] ∧ splitLine input = (line, lines.flatten) ∧ Lines lines.flatten lines := by
  cases h with
  | rest hne hline =>
    refine ⟨hne, ?_, .nothing⟩
    have hall : ∀ b ∈ input, (b != lineFeed) = true := by
      intro b hb
      rw [bne_iff_ne]
      rintro rfl
      exact hline hb
    unfold splitLine
    rw [List.takeWhile_eq_self_iff.mpr hall, List.dropWhile_eq_nil_iff.mpr hall]
    simp
  | @next body behind _ hbody hbehind =>
    rw [splitLine_append hbody, hbehind.flatten]
    exact ⟨by simp, rfl, hbehind⟩

theorem ne_nil_of_cons {line : Bytes} (h : Lines input (line :: lines)) : input ≠ [] := by
  obtain ⟨hne, -, -⟩ := h.splitLine_eq
  rw [← h.flatten, List.flatten_cons]
  exact List.append_ne_nil_of_left_ne_nil hne _

/-- **There is one way to cut an input into lines.** -/
theorem unique {others : List Bytes} (h : Lines input lines) (h' : Lines input others) :
    others = lines := by
  induction lines generalizing input others with
  | nil =>
    cases others with
    | nil => rfl
    | cons other others => exact absurd h.nil_of_nil h'.ne_nil_of_cons
  | cons line lines ih =>
    cases others with
    | nil => exact absurd h'.nil_of_nil h.ne_nil_of_cons
    | cons other others =>
      obtain ⟨-, hsplit, hbehind⟩ := h.splitLine_eq
      obtain ⟨-, hsplit', hbehind'⟩ := h'.splitLine_eq
      obtain ⟨rfl, hleft⟩ := Prod.mk.inj (hsplit'.symm.trans hsplit)
      rw [hleft] at hbehind'
      rw [ih hbehind hbehind']

end Lines

/-! ## What a line says -/

/-- What a line of input is read as: its text without the carriage returns and line feeds at its
end, or the token to quit if it is no text. -/
inductive ReadsAs (line : Bytes) : String → Prop where
  | text {s tail : String} : line = Text.encode (s ++ tail) →
      (∀ c ∈ tail.toList, c = '\r' ∨ c = '\n') →
      (∀ c, s.toList.getLast? = some c → c ≠ '\r' ∧ c ≠ '\n') → ReadsAs line s
  | garbled : (∀ s, line ≠ Text.encode s) → ReadsAs line Reserved.quit

/-- A text is what is left of it when it is trimmed, and what was trimmed off. -/
theorem trimLine_spec (s : String) :
    ∃ tail, s = trimLine s ++ tail ∧ (∀ c ∈ tail.toList, c = '\r' ∨ c = '\n')
      ∧ ∀ c, (trimLine s).toList.getLast? = some c → c ≠ '\r' ∧ c ≠ '\n' := by
  let ends (c : Char) : Bool := c == '\r' || c == '\n'
  have hsplit : s.toList = (s.toList.reverse.dropWhile ends).reverse
      ++ (s.toList.reverse.takeWhile ends).reverse := by
    rw [← List.reverse_append, List.takeWhile_append_dropWhile, List.reverse_reverse]
  have htrim : (trimLine s).toList = (s.toList.reverse.dropWhile ends).reverse :=
    String.toList_ofList
  refine ⟨String.ofList (s.toList.reverse.takeWhile ends).reverse, ?_, ?_, ?_⟩
  · apply String.ext
    rw [String.toList_append, String.toList_ofList, htrim]
    exact hsplit
  · intro c hc
    rw [String.toList_ofList, List.mem_reverse] at hc
    have hends : ends c = true := List.mem_takeWhile_imp hc
    simpa [ends] using hends
  · intro c hc
    rw [htrim, List.getLast?_reverse] at hc
    have hkept := List.head?_dropWhile_not ends s.toList.reverse
    rw [hc] at hkept
    simpa [ends] using hkept

theorem readsAs_lineInput {line : Bytes} (h : line ≠ []) : ReadsAs line (lineInput line) := by
  have hsome : line.isEmpty = false := by simpa using h
  unfold lineInput
  rw [hsome]
  cases hdecode : Text.decode? line with
  | none =>
    refine .garbled fun s hs => ?_
    rw [hs, Text.decode?_encode] at hdecode
    cases hdecode
  | some s =>
    obtain ⟨tail, htext, htail, hlast⟩ := trimLine_spec s
    have hline : line = Text.encode (trimLine s ++ tail) := by
      rw [← htext]
      exact Text.decode?_eq_some_iff.mp hdecode
    exact .text hline htail hlast

/-! ## One call -/

namespace Console

variable {ω : Type} [Writer ω] {c : Console ω} {lines : List Bytes}

/-- Whether a read gets past the prompt: it can be put out and flushed. -/
def prompts (c : Console ω) : Bool := (Writer.emit c.sink (Text.encode c.prompt)).1.isOk

/-- The answer to a read that gets past the prompt. -/
def delivers (c : Console ω) : Call → List String
  | .read => if c.prompts then [c.read.1] else []
  | .write _ => []

/-- The answers to all reads that get past the prompt, in order. -/
def delivered (c : Console ω) : List Call → List String
  | [] => []
  | first :: calls => c.delivers first ++ (c.call first).delivered calls

/-- **A read that does not get past the prompt says to quit and takes nothing.** -/
theorem read_of_not_prompts (h : c.prompts = false) :
    c.read.1 = Reserved.quit ∧ c.read.2.input = c.input := by
  unfold prompts at h
  unfold read
  generalize Writer.emit c.sink (Text.encode c.prompt) = x at h ⊢
  obtain ⟨answer, sink⟩ := x
  cases answer with
  | ok _ => cases h
  | error fault => exact ⟨rfl, rfl⟩

theorem read_of_prompts (h : c.prompts = true) :
    c.read.1 = lineInput (splitLine c.input).1 ∧ c.read.2.input = (splitLine c.input).2 := by
  unfold prompts at h
  unfold read
  generalize Writer.emit c.sink (Text.encode c.prompt) = x at h ⊢
  obtain ⟨answer, sink⟩ := x
  cases answer with
  | ok _ => exact ⟨rfl, rfl⟩
  | error fault => cases h

/-- What is answered to a read that gets past the prompt when there are so many lines left: what
the first of them is read as, and the token to quit if there is none. -/
inductive Answers : List Bytes → String → Prop where
  | line {line : Bytes} {behind : List Bytes} {answer : String} :
      ReadsAs line answer → Answers (line :: behind) answer
  | over : Answers [] Reserved.quit

/-- **A read that gets past the prompt takes one line**, if there is one left. -/
theorem read_takes (h : Lines c.input lines) (hprompts : c.prompts = true) :
    Answers lines c.read.1 ∧ Lines c.read.2.input lines.tail := by
  obtain ⟨hanswer, hinput⟩ := read_of_prompts hprompts
  rw [hanswer, hinput]
  cases lines with
  | nil =>
    rw [h.nil_of_nil]
    exact ⟨.over, .nothing⟩
  | cons line behind =>
    obtain ⟨hne, hsplit, hbehind⟩ := h.splitLine_eq
    rw [hsplit]
    exact ⟨.line (readsAs_lineInput hne), hbehind⟩

/-- A call hands out the next line or none. -/
theorem call_takes (h : Lines c.input lines) (next : Call) :
    Lines (c.call next).input (lines.drop (c.delivers next).length)
      ∧ ∀ answer ∈ c.delivers next, Answers lines answer := by
  cases next with
  | write line =>
    refine ⟨?_, nofun⟩
    show Lines (c.write line).2.input lines
    rw [input_write]
    exact h
  | read =>
    unfold delivers
    dsimp only
    cases hprompts : c.prompts with
    | false =>
      refine ⟨?_, nofun⟩
      show Lines c.read.2.input lines
      rw [(read_of_not_prompts hprompts).2]
      exact h
    | true =>
      obtain ⟨hanswer, hinput⟩ := read_takes h hprompts
      rw [if_pos rfl, List.length_singleton, List.drop_one]
      refine ⟨hinput, ?_⟩
      intro answer hmem
      rw [List.mem_singleton.mp hmem]
      exact hanswer

/-! ## Sequences of calls -/

theorem length_delivers_le (c : Console ω) (next : Call) : (c.delivers next).length ≤ 1 := by
  cases next with
  | write line => exact Nat.zero_le 1
  | read =>
    unfold delivers
    dsimp only
    split
    · exact Nat.le_refl 1
    · exact Nat.zero_le 1

/-- **What is left to read are the lines that were not handed out**, and each answer is that to
the line whose turn it was. -/
theorem after_takes (h : Lines c.input lines) (calls : List Call) :
    Lines (c.after calls).input (lines.drop (c.delivered calls).length)
      ∧ ∀ i answer, (c.delivered calls)[i]? = some answer → Answers (lines.drop i) answer := by
  induction calls generalizing c lines with
  | nil => exact ⟨h, nofun⟩
  | cons first calls ih =>
    obtain ⟨hfirst, hanswer⟩ := call_takes h first
    obtain ⟨hrest, hanswers⟩ := ih hfirst
    unfold delivered
    rw [List.length_append, ← List.drop_drop]
    refine ⟨hrest, ?_⟩
    intro i answer hi
    rcases Nat.lt_or_ge i (c.delivers first).length with hlt | hge
    · rw [List.getElem?_append_left hlt] at hi
      have hle := c.length_delivers_le first
      have hzero : i = 0 := by omega
      rw [hzero, List.drop_zero]
      exact hanswer answer (List.mem_of_getElem? hi)
    · rw [List.getElem?_append_right hge] at hi
      have hlater := hanswers _ answer hi
      rwa [List.drop_drop, Nat.add_sub_cancel' hge] at hlater

/-- **Input is split without loss.** The input of a console is one row of lines. After any calls,
whatever the writer does in between: a read that does not get past the prompt says to quit and
takes nothing, and a write takes nothing either. If `k` reads got past the prompt before, the
next one that does is answered by what line number `k` is read as, and takes this line and no
more; if there is no such line, it is answered by the token to quit. In this way all answers to
such reads are those to the lines in order. -/
theorem input_without_loss (c : Console ω) :
    ∃ lines, (∀ others, Lines c.input others ↔ others = lines) ∧ lines.flatten = c.input
      ∧ ∀ calls,
      (c.after calls).input = (lines.drop (c.delivered calls).length).flatten
        ∧ ((c.after calls).prompts = false →
          (c.after calls).read.1 = Reserved.quit
            ∧ (c.after calls).read.2.input = (c.after calls).input)
        ∧ (∀ line, ((c.after calls).write line).2.input = (c.after calls).input)
        ∧ ((c.after calls).prompts = true →
          Answers (lines.drop (c.delivered calls).length) (c.after calls).read.1
            ∧ (c.after calls).read.2.input
              = (lines.drop ((c.delivered calls).length + 1)).flatten)
        ∧ ∀ k answer, (c.delivered calls)[k]? = some answer → Answers (lines.drop k) answer := by
  obtain ⟨lines, h⟩ := Lines.exists_lines c.input
  refine ⟨lines, fun others => ⟨h.unique, fun heq => heq ▸ h⟩, h.flatten, fun calls => ?_⟩
  obtain ⟨hleft, hanswers⟩ := after_takes h calls
  refine ⟨hleft.flatten.symm, read_of_not_prompts, (c.after calls).input_write, ?_, hanswers⟩
  intro hprompts
  obtain ⟨hanswer, hbehind⟩ := read_takes hleft hprompts
  rw [List.tail_drop] at hbehind
  exact ⟨hanswer, hbehind.flatten.symm⟩

/-- A console at which three lines were typed and the beginning of a fourth. The second line is no
text. The fourth flush fails. -/
def hoarse : Console where
  input := Text.encode "go\r\r\n" ++ [0xC3, 0x28, lineFeed] ++ Text.encode "\nend"
  sink := { flushes := some 3 }

/-- The second read takes the line that is no text, which is answered by the token to quit. The
third one does not get past the prompt, and leaves the empty line where it was. -/
theorem input_without_loss_hoarse :
    (hoarse.after [.read, .write "Where?"]).prompts = true
      ∧ hoarse.delivered [.read, .write "Where?", .read] = ["go", Reserved.quit]
      ∧ (∃ lines, Lines hoarse.input lines ∧ Answers lines "go"
        ∧ Answers (lines.drop 1) (hoarse.after [.read, .write "Where?"]).read.1)
      ∧ (hoarse.after [.read, .write "Where?", .read]).prompts = false
      ∧ (hoarse.after [.read, .write "Where?", .read]).read.1 = Reserved.quit
      ∧ (hoarse.after [.read, .write "Where?", .read]).read.2.input = Text.encode "\nend" := by
  have hgone : hoarse.delivered [.read, .write "Where?"] = ["go"] := by decide +kernel
  have hboth : hoarse.delivered [.read, .write "Where?", .read] = ["go", Reserved.quit] := by
    decide +kernel
  have hprompts : (hoarse.after [.read, .write "Where?"]).prompts = true := by decide +kernel
  have hfails : (hoarse.after [.read, .write "Where?", .read]).prompts = false := by
    decide +kernel
  have hleft : (hoarse.after [.read, .write "Where?", .read]).input = Text.encode "\nend" := by
    decide +kernel
  obtain ⟨lines, hlines, -, hcalls⟩ := input_without_loss hoarse
  obtain ⟨-, -, -, htakes, -⟩ := hcalls [.read, .write "Where?"]
  obtain ⟨-, hquits, -, -, hanswers⟩ := hcalls [.read, .write "Where?", .read]
  have hfirst := hanswers 0 "go" (by rw [hboth]; rfl)
  have hsecond := (htakes hprompts).1
  rw [hgone] at hsecond
  obtain ⟨hquit, hsame⟩ := hquits hfails
  exact ⟨hprompts, hboth, ⟨lines, (hlines lines).mpr rfl, hfirst, hsecond⟩, hfails, hquit,
    hsame.trans hleft⟩

end Console

end DialogueTree
