import DialogueTree.Proofs.Walk.Authored
import DialogueTree.Proofs.Walk.Locality

/-!
# A walk reads at most once more than there are inputs

A script gives its inputs one by one, and when they are used up it says to quit. Only a message
reads, and what it reads is compared with the token to quit before any option is looked up. So the
first read behind the inputs ends the walk, even where an option is keyed by that very token, and
a walk that has ended never reads again.

The invariant is that the script has given as many of its inputs as there were reads, and that a
walk that still runs has not read beyond them (`Script.Given`, `Walker.reads_after`).
-/

namespace DialogueTree

/-- Whether a node is a message. -/
def Node.isMessage : Node → Bool
  | .message .. => true
  | _ => false

/-! ## Scripts that have given inputs -/

/-- A script that has given the inputs that were heard, and has the others still to give. Behind
the last input it has given the token to quit. -/
structure Script.Given (inputs heard : List String) (s : Script) : Prop where
  left : s.inputs = inputs.drop s.reads
  heard : heard = (inputs ++ [Reserved.quit]).take s.reads

namespace Script.Given

variable {inputs heard : List String} {s : Script}

/-- The next input is the one whose turn it is. -/
theorem next (h : s.Given inputs heard) (hle : s.reads ≤ inputs.length) :
    (inputs ++ [Reserved.quit])[s.reads]? = some (s.inputs.headD Reserved.quit) := by
  rw [h.left, List.headD_eq_head?_getD, List.head?_drop]
  rcases Nat.lt_or_eq_of_le hle with hlt | heq
  · rw [List.getElem?_append_left hlt, List.getElem?_eq_getElem hlt, Option.getD_some]
  · rw [heq, List.getElem?_concat_length, List.getElem?_eq_none (Nat.le_refl _), Option.getD_none]

/-- Giving an input takes it from the inputs that are left. -/
theorem ask {s' : Script} (h : s.Given inputs heard) (hle : s.reads ≤ inputs.length)
    (hinputs : s'.inputs = s.inputs.tail) (hreads : s'.reads = s.reads + 1) :
    s'.Given inputs (heard ++ [s.inputs.headD Reserved.quit]) where
  left := by rw [hinputs, hreads, h.left, List.tail_drop]
  heard := by rw [hreads, List.take_add_one, h.next hle, ← h.heard, Option.toList_some]

end Script.Given

namespace Walker

/-! ## One step -/

/-- **Who reads the token to quit ends the walk**, whatever the options. -/
theorem terminated_of_quit {σ : Type} [Channel σ] {w : Walker σ}
    (h : w.inputsRead = [Reserved.quit]) : w.step.walker.phase = .terminated := by
  cases hphase : w.phase with
  | terminated => rw [step_terminated hphase, hphase]
  | running =>
    cases hresult : w.step.result with
    | error e =>
      rw [inputsRead_of_error hresult] at h
      cases h
    | ok phase =>
      obtain ⟨node, d, -, hselects, hfollows⟩ := step_follows hphase hresult
      rw [h, selects_iff] at hselects
      refine hfollows.ends.mpr ?_
      cases node with
      | directive raw => cases hselects.1
      | dialogue entries => cases hselects.1
      | message prompt options =>
        obtain ⟨_, hinput, rfl⟩ := hselects
        cases hinput
        exact ⟨_, by rw [chosen, if_pos rfl], Directive.parse_quit⟩

/-- What a step over a script does to the inputs: nothing, or it visits a message and reads one
of them. -/
inductive Turn (w : Walker Script) : Prop where
  | quiet : w.next?.toList.countP Node.isMessage = 0 → w.inputsRead = [] →
      w.step.walker.channel.reads = w.channel.reads →
      w.step.walker.channel.inputs = w.channel.inputs → Turn w
  | asks : w.next?.toList.countP Node.isMessage = 1 →
      w.inputsRead = [w.channel.inputs.headD Reserved.quit] →
      w.step.walker.channel.reads = w.channel.reads + 1 →
      w.step.walker.channel.inputs = w.channel.inputs.tail → Turn w

/-- Showing lines takes no input. -/
theorem script_writeAll (s : Script) (lines : List String) :
    (Channel.writeAll s lines).2.inputs = s.inputs
      ∧ (Channel.writeAll s lines).2.reads = s.reads := by
  refine Channel.writeAll_keeps (P := fun c : Script => c.inputs = s.inputs ∧ c.reads = s.reads)
    ?_ ⟨rfl, rfl⟩
  intro line _ c h
  show (c.write line).inputs = s.inputs ∧ (c.write line).reads = s.reads
  rw [Script.inputs_write, Script.reads_write]
  exact h

theorem step_turn (w : Walker Script) : w.Turn := by
  cases hnext : w.next? with
  | none =>
    have hstep := step_of_next?_none hnext
    exact .quiet (by rw [hnext]; rfl) (inputsRead_of_next?_none hnext) (by rw [hstep])
      (by rw [hstep])
  | some node =>
    have hshown := Script.writeAll_ok w.channel node.visibleLines
    have hread := inputsRead_of_shown hnext hshown
    have hchannel := step_channel hnext hshown
    obtain ⟨hinputs, hreads⟩ := script_writeAll w.channel node.visibleLines
    generalize (Channel.writeAll w.channel node.visibleLines).2 = c at hread hchannel hinputs hreads
    cases node with
    | directive raw =>
      exact .quiet (by rw [hnext]; rfl) hread (by rw [hchannel]; exact hreads)
        (by rw [hchannel]; exact hinputs)
    | dialogue entries =>
      exact .quiet (by rw [hnext]; rfl) hread (by rw [hchannel]; exact hreads)
        (by rw [hchannel]; exact hinputs)
    | message prompt options =>
      have hanswered : w.step.walker.channel = c.read.2 := hchannel
      have hasked : w.inputsRead = [c.read.1] := hread
      rw [Script.read_eq] at hanswered hasked
      refine .asks (by rw [hnext]; rfl) ?_ ?_ ?_
      · rw [hasked, hinputs]
      · rw [hanswered, hreads]
      · rw [hanswered, hinputs]

/-! ## Runs -/

/-- A step with a read hears the next input and takes it away. -/
theorem asks_of_reads {w : Walker Script}
    (h : w.step.walker.channel.reads = w.channel.reads + 1) :
    w.inputsRead = [w.channel.inputs.headD Reserved.quit]
      ∧ w.step.walker.channel.inputs = w.channel.inputs.tail := by
  cases w.step_turn with
  | quiet _ _ hreads _ => omega
  | asks _ hread _ hinputs => exact ⟨hread, hinputs⟩

/-- What is true of the reads of a walk after so many steps. -/
structure Reads (inputs : List String) (w : Walker Script) (n : Nat) : Prop where
  /-- The inputs are given in order, and behind the last one the token to quit. -/
  given : (w.after n).channel.Given inputs (w.heard n)
  /-- There was one read for every message that was visited. -/
  counts : (w.after n).channel.reads = (w.visited n).countP Node.isMessage
  /-- There is at most one read behind the inputs. -/
  bounded : (w.after n).channel.reads ≤ inputs.length + 1
  /-- A walk that still runs has not read behind the inputs. -/
  running : (w.after n).phase = .running → (w.after n).channel.reads ≤ inputs.length

variable {inputs : List String} {w : Walker Script} {n : Nat}

/-- A walk that visits a message runs. -/
theorem running_of_countP (h : w.next?.toList.countP Node.isMessage = 1) :
    w.phase = .running := by
  cases hnext : w.next? with
  | none =>
    rw [hnext] at h
    cases h
  | some node => exact (next?_eq_some_iff.mp hnext).1

theorem phase_of_step (h : w.step.walker.phase = .running) : w.phase = .running := by
  cases hphase : w.phase with
  | running => rfl
  | terminated =>
    rw [step_terminated hphase, hphase] at h
    cases h

/-- **A step keeps the account of the reads.** -/
theorem Reads.step (h : w.Reads inputs n) : w.Reads inputs (n + 1) := by
  have hvisited : (w.visited (n + 1)).countP Node.isMessage
      = (w.visited n).countP Node.isMessage + (w.after n).next?.toList.countP Node.isMessage := by
    rw [visited_succ, List.countP_append]
  cases (w.after n).step_turn with
  | quiet hcount hread hreads hinputs =>
    have hsame : (w.after (n + 1)).channel.reads = (w.after n).channel.reads := hreads
    refine ⟨⟨?_, ?_⟩, ?_, ?_, ?_⟩
    · rw [hsame, ← h.given.left]
      exact hinputs
    · rw [heard_succ, hread, List.append_nil, hsame]
      exact h.given.heard
    · rw [hsame, h.counts, hvisited, hcount]
      rfl
    · rw [hsame]
      exact h.bounded
    · intro hrunning
      rw [hsame]
      exact h.running (phase_of_step hrunning)
  | asks hcount hread hreads hinputs =>
    have hmore : (w.after (n + 1)).channel.reads = (w.after n).channel.reads + 1 := hreads
    have hle := h.running (running_of_countP hcount)
    refine ⟨?_, ?_, by omega, ?_⟩
    · rw [heard_succ, hread]
      exact h.given.ask hle hinputs hreads
    · rw [hmore, h.counts, hvisited, hcount]
    · intro hrunning
      by_contra hbehind
      -- then it was the read behind the inputs, and that one ends the walk
      have hall : (w.after n).channel.inputs = [] := by
        rw [h.given.left]
        exact List.drop_eq_nil_of_le (by omega)
      rw [hall] at hread
      have hends := terminated_of_quit hread
      rw [show (w.after n).step.walker.phase = .running from hrunning] at hends
      cases hends

theorem reads_after (doc : Document) (start : String) (inputs : List String) (n : Nat) :
    (scripted doc start inputs).Reads inputs n := by
  induction n with
  | zero => exact ⟨⟨rfl, rfl⟩, rfl, Nat.zero_le _, fun _ => Nat.zero_le _⟩
  | succ n ih => exact ih.step

/-- **Reads are bounded by the inputs.** Take any walk over a script with `m` inputs, and any
number of steps. There are at most `m + 1` reads, as many as messages that were visited. What was
heard are the first inputs, and behind the last one the token to quit; the others are left. In a
step that reads the k-th input just this input is heard, and just this one is taken away. The step
that reads behind the last input hears the token to quit, and ends the walk; whenever there were
`m + 1` reads, the walk has ended. -/
theorem reads_bounded (doc : Document) (start : String) (inputs : List String) (n : Nat) :
    let w := scripted doc start inputs
    (w.after n).channel.reads ≤ inputs.length + 1
      ∧ (w.after n).channel.reads = (w.visited n).countP Node.isMessage
      ∧ w.heard n = (inputs ++ [Reserved.quit]).take (w.after n).channel.reads
      ∧ (w.after n).channel.inputs = inputs.drop (w.after n).channel.reads
      ∧ (∀ k input, inputs[k]? = some input → (w.after n).channel.reads = k →
        (w.after (n + 1)).channel.reads = k + 1 →
          (w.after n).inputsRead = [input]
            ∧ (w.after n).channel.inputs = input :: (w.after (n + 1)).channel.inputs)
      ∧ ((w.after n).channel.reads = inputs.length →
        (w.after (n + 1)).channel.reads = inputs.length + 1 →
          (w.after n).inputsRead = [Reserved.quit] ∧ (w.after (n + 1)).phase = .terminated)
      ∧ ((w.after n).channel.reads = inputs.length + 1 → (w.after n).phase = .terminated) := by
  intro w
  have h : w.Reads inputs n := reads_after doc start inputs n
  have hends {n : Nat} (hall : (w.after n).channel.reads = inputs.length + 1) :
      (w.after n).phase = .terminated := by
    cases hphase : (w.after n).phase with
    | terminated => rfl
    | running =>
      have hle := (reads_after doc start inputs n).running hphase
      rw [show ((scripted doc start inputs).after n).channel.reads = inputs.length + 1 from hall]
        at hle
      omega
  refine ⟨h.bounded, h.counts, h.given.heard, h.given.left, ?_, ?_, hends⟩
  · intro k input hinput hbefore hbehind
    obtain ⟨hk, rfl⟩ := List.getElem?_eq_some_iff.mp hinput
    obtain ⟨hread, hrest⟩ := asks_of_reads (w := w.after n) (hbehind.trans (by rw [hbefore]))
    have hleft : (w.after n).channel.inputs = inputs[k] :: inputs.drop (k + 1) := by
      rw [h.given.left, hbefore, List.drop_eq_getElem_cons hk]
    rw [hleft] at hread hrest
    exact ⟨hread, by rw [hleft]; exact congrArg _ hrest.symm⟩
  · intro hbefore hbehind
    obtain ⟨hread, -⟩ := asks_of_reads (w := w.after n) (hbehind.trans (by rw [hbefore]))
    have hleft : (w.after n).channel.inputs = [] := by
      rw [h.given.left, hbefore, List.drop_length]
    rw [hleft] at hread
    exact ⟨hread, hends hbehind⟩

/-- At the porch there is an option that is named like the token to quit and would lead into the
hall. With a single input there are two reads, and the second one ends the walk. -/
theorem reads_bounded_porch :
    let w := scripted porch.document "porch" ["in"]
    (w.after 0).inputsRead = ["in"]
      ∧ (w.after 2).channel.reads = 1 ∧ (w.after 3).channel.reads = 2
      ∧ (w.after 2).inputsRead = [Reserved.quit] ∧ (w.after 3).phase = .terminated
      ∧ (w.after 5).phase = .terminated := by
  intro w
  have hbefore : (w.after 2).channel.reads = 1 := by rfl
  have hbehind : (w.after 3).channel.reads = 2 := by rfl
  have hlater : (w.after 5).channel.reads = 2 := by rfl
  obtain ⟨-, -, -, -, hfirst, -, -⟩ := reads_bounded porch.document "porch" ["in"] 0
  obtain ⟨-, -, -, -, -, hlast, -⟩ := reads_bounded porch.document "porch" ["in"] 2
  obtain ⟨-, -, -, -, -, -, hended⟩ := reads_bounded porch.document "porch" ["in"] 5
  obtain ⟨hquit, hends⟩ := hlast hbefore hbehind
  exact ⟨(hfirst 0 "in" rfl rfl (by rfl)).1, hbefore, hbehind, hquit, hends, hended hlater⟩

end Walker

end DialogueTree
