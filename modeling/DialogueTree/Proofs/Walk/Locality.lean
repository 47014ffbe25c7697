import DialogueTree.Proofs.Walk.Abreast
import DialogueTree.Proofs.Walk.Decided

/-!
# A walk depends on what it visits and reads

Nothing of a document is looked at but the entries on which a walk stands, and nothing of the
input but what has been read. So a walk cannot be told from another that finds the same
entries on its way and is given the same inputs, however different the two documents are
elsewhere and whatever other inputs are still waiting.

That the inputs are the same can be said of the two walks: what they read in each step is the
same (`Channel.AlikeGiven`). Where the inputs are there beforehand it can be said of the inputs
alone. What waits is the difficulty then, because two channels that give the same inputs for a
while need not do so for ever, and how long is enough is only known when the walk has been
made. The relation between the channels is therefore counted (`Channel.AlikeFor`): each read
uses up one of the inputs that are sure to be the same, and a walk needs as many as it reads.
-/

namespace DialogueTree

theorem Document.node_congr {A B : Document} {id : String} (h : A.get? id = B.get? id) :
    A.node id = B.node id := by
  unfold Document.node
  rw [h]

section

variable {σ τ : Type} [Channel σ] [Channel τ]

/-- Channels that can show the same lines, as long as they give the same inputs. -/
structure Channel.AlikeGiven (S : σ → τ → Prop) : Prop where
  read : ∀ {c d}, S c d → (Channel.read c).1 = (Channel.read d).1 →
    S (Channel.read c).2 (Channel.read d).2
  write : ∀ {c d} (line : String), S c d →
    (Channel.write c line).1 = (Channel.write d line).1
      ∧ S (Channel.write c line).2 (Channel.write d line).2

/-- Channels that give the same answers until so many inputs have been read. -/
structure Channel.AlikeFor (R : Nat → σ → τ → Prop) : Prop where
  read : ∀ {k c d}, R (k + 1) c d →
    (Channel.read c).1 = (Channel.read d).1 ∧ R k (Channel.read c).2 (Channel.read d).2
  write : ∀ {k c d} (line : String), R k c d →
    (Channel.write c line).1 = (Channel.write d line).1
      ∧ R k (Channel.write c line).2 (Channel.write d line).2

namespace Walker

/-- The inputs that are read in so many steps, in order. -/
def heard (w : Walker σ) (n : Nat) : List String :=
  (List.range n).flatMap fun m => (w.after m).inputsRead

theorem heard_succ (w : Walker σ) (n : Nat) :
    w.heard (n + 1) = w.heard n ++ (w.after n).inputsRead := by
  unfold heard
  rw [List.range_succ, List.flatMap_append, List.flatMap_singleton]

/-- Wherever one of the first steps is made, another document has the same entry, or it has
none either. -/
def FindsAlike (w : Walker σ) (doc : Document) (n : Nat) : Prop :=
  ∀ m < n, (w.after m).phase = .running →
    w.document.get? (w.after m).cursor = doc.get? (w.after m).cursor

/-- Walks that cannot be told apart in so many steps: each step begins at the same place, over
channels that stand in a relation, and has the same result and the same events. -/
structure Together (S : σ → τ → Prop) (w : Walker σ) (v : Walker τ) (n : Nat) : Prop where
  places : ∀ m ≤ n, (w.after m).Abreast S (v.after m)
  results : ∀ m < n, (w.after m).step.result = (v.after m).step.result
  events : ∀ m < n, (w.after m).step.events = (v.after m).step.events

variable {R : Nat → σ → τ → Prop} {S T : σ → τ → Prop} {w : Walker σ} {v : Walker τ} {n : Nat}

theorem Together.mono (h : w.Together S v n) (hST : ∀ {c d}, S c d → T c d) :
    w.Together T v n :=
  ⟨fun m hm => (h.places m hm).mono hST, h.results, h.events⟩

theorem Together.zero (h : w.Abreast S v) : w.Together S v 0 where
  places := by
    intro m hm
    cases Nat.le_zero.mp hm
    exact h
  results := nofun
  events := nofun

theorem Together.succ (h : w.Together S v n)
    (hstep : (w.after n).step.Abreast S (v.after n).step)
    (hevents : (w.after n).step.events = (v.after n).step.events) : w.Together S v (n + 1) where
  places := by
    intro m hm
    rcases Nat.le_succ_iff.mp hm with hm | rfl
    · exact h.places m hm
    · exact hstep.walker
  results := by
    intro m hm
    rcases Nat.lt_succ_iff_lt_or_eq.mp hm with hm | rfl
    · exact h.results m hm
    · exact hstep.result
  events := by
    intro m hm
    rcases Nat.lt_succ_iff_lt_or_eq.mp hm with hm | rfl
    · exact h.events m hm
    · exact hevents

theorem Together.step (h : w.Together S v (n + 1)) : w.step.walker.Together S v.step.walker n where
  places := by
    intro m hm
    rw [after_step, after_step]
    exact h.places (m + 1) (Nat.succ_le_succ hm)
  results := by
    intro m hm
    rw [after_step, after_step]
    exact h.results (m + 1) (Nat.succ_lt_succ hm)
  events := by
    intro m hm
    rw [after_step, after_step]
    exact h.events (m + 1) (Nat.succ_lt_succ hm)

/-- Runs that stop at a failure or at the end cannot be told apart either. -/
theorem Together.run (h : w.Together S v n) :
    (w.run n).result = (v.run n).result ∧ (w.run n).steps = (v.run n).steps
      ∧ (w.run n).events = (v.run n).events ∧ (w.run n).walker.Abreast S (v.run n).walker := by
  induction n generalizing w v with
  | zero => exact ⟨rfl, rfl, rfl, h.places 0 (Nat.le_refl 0)⟩
  | succ n ih =>
    obtain ⟨hresult, hsteps, hevents, hwalker⟩ := ih h.step
    have hfirst : w.step.result = v.step.result := h.results 0 (Nat.succ_pos n)
    have htold : w.step.events = v.step.events := h.events 0 (Nat.succ_pos n)
    have hnext : w.step.walker.Abreast S v.step.walker := h.places 1 (by omega)
    unfold Walker.run
    dsimp only
    rw [← hfirst, ← htold]
    split
    · rw [hresult, hsteps, hevents]
      exact ⟨rfl, rfl, rfl, hwalker⟩
    · exact ⟨rfl, rfl, rfl, hnext⟩

theorem together_of_like (hR : Channel.Alike S) (h : w.Like S v) (n : Nat) : w.Together S v n where
  places := by
    intro m _
    have hlike := after_like hR h m
    exact ⟨hlike.cursor, hlike.phase, hlike.channel⟩
  results := fun m _ => (step_like hR (after_like hR h m)).result
  events := fun m _ => (step_like hR (after_like hR h m)).events

theorem FindsAlike.node_eq (h : w.FindsAlike v.document (n + 1))
    (hrunning : (w.after n).phase = .running) :
    (w.after n).document.node (w.after n).cursor
      = (v.after n).document.node (w.after n).cursor := by
  rw [after_document, after_document]
  exact Document.node_congr (h n (Nat.lt_succ_self n) hrunning)

/-- **Walks that find the same and read the same stay together.** -/
theorem together_of_inputs (hS : Channel.AlikeGiven S) (h : w.Abreast S v)
    (hfinds : w.FindsAlike v.document n)
    (hinputs : ∀ m < n, (w.after m).inputsRead = (v.after m).inputsRead) : w.Together S v n := by
  induction n with
  | zero => exact .zero h
  | succ n ih =>
    have htogether := ih (fun m hm => hfinds m (Nat.lt_succ_of_lt hm))
      fun m hm => hinputs m (Nat.lt_succ_of_lt hm)
    have hsame := hinputs n (Nat.lt_succ_self n)
    have hinput {c : σ} {d : τ} (hread : (w.after n).inputsRead = [(Channel.read c).1])
        (hread' : (v.after n).inputsRead = [(Channel.read d).1]) :
        (Channel.read c).1 = (Channel.read d).1 := by
      rw [hread, hread'] at hsame
      exact List.head_eq_of_cons_eq hsame
    obtain ⟨hstep, hevents⟩ := step_abreast (S := S) (htogether.places n (Nat.le_refl n))
      hfinds.node_eq hS.write (fun _ _ _ hcd => hcd) (by
        intro prompt options c d _ hread hread' hcd
        have hgiven := hinput hread hread'
        exact ⟨by rw [hgiven], hS.read hcd hgiven⟩)
    exact htogether.succ hstep (hevents fun hread hread' _ => hinput hread hread')

/-- A step over channels that are alike for what it reads, and for `k` inputs more. -/
theorem step_abreast_of_reads (hR : Channel.AlikeFor R) {k : Nat}
    (h : w.Abreast (R (w.inputsRead.length + k)) v)
    (hnode : w.phase = .running → w.document.node w.cursor = v.document.node w.cursor) :
    w.step.Abreast (R k) v.step ∧ w.step.events = v.step.events := by
  have hone {c : σ} {d : τ} (hread : w.inputsRead = [(Channel.read c).1])
      (hcd : R (w.inputsRead.length + k) c d) :
      (Channel.read c).1 = (Channel.read d).1 ∧ R k (Channel.read c).2 (Channel.read d).2 := by
    rw [hread, List.length_singleton, Nat.add_comm] at hcd
    exact hR.read hcd
  obtain ⟨hstep, hevents⟩ := step_abreast (S := R k) h hnode hR.write
    (by
      intro hnone c d hcd
      rwa [hnone, List.length_nil, Nat.zero_add] at hcd)
    (by
      intro prompt options c d _ hread _ hcd
      obtain ⟨hinput, hrest⟩ := hone hread hcd
      exact ⟨by rw [hinput], hrest⟩)
  exact ⟨hstep, hevents fun hread _ hcd => (hone hread hcd).1⟩

/-- **Walks that find the same and are given the same stay together.** Of what the channels
have in common as much is left as there was beyond what the walk has read. -/
theorem together_of_reads (hR : Channel.AlikeFor R) {k : Nat}
    (h : w.Abreast (R ((w.heard n).length + k)) v) (hfinds : w.FindsAlike v.document n) :
    w.Together (fun c d => ∃ k, R k c d) v n ∧ (w.after n).Abreast (R k) (v.after n) := by
  induction n generalizing k with
  | zero =>
    have hbegin : w.Abreast (R k) v := h.mono fun hcd => by rwa [← Nat.zero_add k]
    exact ⟨.zero (hbegin.mono fun hcd => ⟨k, hcd⟩), hbegin⟩
  | succ n ih =>
    rw [heard_succ, List.length_append, Nat.add_assoc] at h
    obtain ⟨htogether, hplace⟩ := ih h fun m hm => hfinds m (Nat.lt_succ_of_lt hm)
    obtain ⟨hstep, hevents⟩ := step_abreast_of_reads hR hplace hfinds.node_eq
    refine ⟨htogether.succ ⟨hstep.result, ?_⟩ hevents, hstep.walker⟩
    exact hstep.walker.mono fun hcd => ⟨k, hcd⟩

end Walker

end

/-! ## Scripts and consoles that are alike for a while -/

/-- Scripts that have recorded the same and have the same inputs for so many reads. -/
structure Script.AlikeFor (k : Nat) (c d : Script) : Prop where
  inputs : ∀ j < k, c.inputs[j]?.getD Reserved.quit = d.inputs[j]?.getD Reserved.quit
  shown : c.shown = d.shown
  reads : c.reads = d.reads
  filter : c.filter = d.filter

theorem Script.alikeFor : Channel.AlikeFor Script.AlikeFor where
  read := by
    intro k c d h
    show c.read.1 = d.read.1 ∧ AlikeFor k c.read.2 d.read.2
    rw [read_eq, read_eq, List.headD_eq_head?_getD, List.headD_eq_head?_getD,
      List.head?_eq_getElem?, List.head?_eq_getElem?]
    refine ⟨h.inputs 0 (Nat.succ_pos k), ?_, h.shown, congrArg (· + 1) h.reads, h.filter⟩
    intro j hj
    rw [List.getElem?_tail, List.getElem?_tail]
    exact h.inputs (j + 1) (Nat.succ_lt_succ hj)
  write := by
    intro k c d line h
    show _ ∧ AlikeFor k (c.write line) (d.write line)
    obtain ⟨hshown, hfilter⟩ := write_congr h.shown h.filter line
    refine ⟨rfl, ?_, hshown, ?_, hfilter⟩
    · rw [inputs_write, inputs_write]
      exact h.inputs
    · rw [reads_write, reads_write]
      exact h.reads

namespace Console

/-- Consoles that differ at most in what they have still to read. -/
structure Same {ω : Type} (c d : Console ω) : Prop where
  sink : c.sink = d.sink
  prompt : c.prompt = d.prompt
  filter : c.filter = d.filter

/-- What a console answers to its reads one after the other, if every prompt comes out. -/
def typed (input : Bytes) : Nat → String
  | 0 => lineInput (splitLine input).1
  | k + 1 => typed (splitLine input).2 k

/-- Consoles that have the same lines to come for so many reads. -/
structure AlikeFor {ω : Type} (k : Nat) (c d : Console ω) : Prop extends Same c d where
  typed : ∀ j < k, typed c.input j = typed d.input j

variable {ω : Type} [Writer ω] {c d : Console ω}

theorem Same.write (h : c.Same d) (line : String) :
    (c.write line).1 = (d.write line).1 ∧ (c.write line).2.Same (d.write line).2 := by
  by_cases hlast : c.filter.last = some line
  · rw [write_of_last hlast, write_of_last (h.filter ▸ hlast)]
    exact ⟨rfl, h⟩
  · rw [write_of_ne hlast, write_of_ne (h.filter ▸ hlast), ← h.sink]
    exact ⟨rfl, rfl, h.prompt, rfl⟩

theorem Same.read (h : c.Same d) : c.read.2.Same d.read.2 where
  sink := by rw [sink_read, sink_read, h.sink, h.prompt]
  prompt := by rw [prompt_read, prompt_read, h.prompt]
  filter := by rw [filter_read, filter_read, h.filter]

theorem alikeGiven : Channel.AlikeGiven (Same (ω := ω)) where
  read := fun h _ => h.read
  write := fun line h => h.write line

theorem alikeFor : Channel.AlikeFor (AlikeFor (ω := ω)) where
  read := by
    intro k c d h
    have hbehind : c.read.2.Same d.read.2 := h.toSame.read
    suffices hinput : c.read.1 = d.read.1
        ∧ ∀ j < k, typed c.read.2.input j = typed d.read.2.input j from
      ⟨hinput.1, hbehind, hinput.2⟩
    unfold Console.read
    rw [← h.sink, ← h.prompt]
    generalize Writer.emit c.sink (Text.encode c.prompt) = x
    obtain ⟨answer, sink⟩ := x
    cases answer with
    | ok _ =>
      exact ⟨h.typed 0 (Nat.succ_pos k), fun j hj => h.typed (j + 1) (Nat.succ_lt_succ hj)⟩
    | error fault => exact ⟨rfl, fun j hj => h.typed j (Nat.lt_succ_of_lt hj)⟩
  write := by
    intro k c d line h
    obtain ⟨hanswer, hsame⟩ := h.toSame.write line
    refine ⟨hanswer, hsame, ?_⟩
    show ∀ j < k, typed (c.write line).2.input j = typed (d.write line).2.input j
    rw [input_write, input_write]
    exact h.typed

end Console

namespace Walker

/-- **A walk depends only on what it visits and reads.** If another document has the same
entries, or none either, wherever one of the first steps over this one is made, and if another
channel gives the same inputs for the reads of these steps, then in so many steps the two walks
cannot be told apart: they have the same results, errors, cursors, phases and events. Scripts
have then recorded the same lines after as many reads, and runs that stop at the first failure
agree as well; consoles have done the same to their writer, whatever it is. For both it is
enough that the inputs to come are the same as far as they are read. What was visited before
makes no difference: from any moment on a walk goes on as one that begins there with the inputs
that are left, and visits the same nodes. -/
theorem depends_on_visits_and_reads :
    (∀ {σ τ : Type} [Channel σ] [Channel τ] {S : σ → τ → Prop}, Channel.AlikeGiven S →
      ∀ (w : Walker σ) (v : Walker τ) (n : Nat), w.Abreast S v → w.FindsAlike v.document n →
        (∀ m < n, (w.after m).inputsRead = (v.after m).inputsRead) → w.Together S v n)
    ∧ (∀ (A B : Document) (start : String) (inputs inputs' : List String) (n : Nat),
      (scripted A start inputs).FindsAlike B n →
      (∀ k < ((scripted A start inputs).heard n).length,
        inputs[k]?.getD Reserved.quit = inputs'[k]?.getD Reserved.quit) →
      (scripted A start inputs).Together (fun c d => c.written = d.written ∧ c.reads = d.reads)
          (scripted B start inputs') n
        ∧ ((scripted A start inputs).run n).result = ((scripted B start inputs').run n).result
        ∧ ((scripted A start inputs).run n).events = ((scripted B start inputs').run n).events)
    ∧ (∀ {ω : Type} [Writer ω] (w v : Walker (Console ω)) (n : Nat), w.Abreast Console.Same v →
      w.FindsAlike v.document n →
      (∀ m < n, (w.after m).inputsRead = (v.after m).inputsRead)
        ∨ (∀ k < (w.heard n).length,
          Console.typed w.channel.input k = Console.typed v.channel.input k) →
      w.Together Console.Same v n)
    ∧ ∀ (w : Walker Script) (m : Nat), (w.after m).phase = .running → ∀ n,
      (w.after m).Together (fun c d => c.inputs = d.inputs)
          (scripted w.document (w.after m).cursor (w.after m).channel.inputs) n
        ∧ (w.after m).visited n
          = (scripted w.document (w.after m).cursor (w.after m).channel.inputs).visited n := by
  refine ⟨?_, ?_, ?_, ?_⟩
  · intro σ τ _ _ S hS w v n h hfinds hinputs
    exact together_of_inputs hS h hfinds hinputs
  · intro A B start inputs inputs' n hfinds hinputs
    have hbegin : (scripted A start inputs).Abreast
        (Script.AlikeFor ((scripted A start inputs).heard n).length) (scripted B start inputs') :=
      ⟨rfl, rfl, hinputs, rfl, rfl, rfl⟩
    obtain ⟨htogether, -⟩ := together_of_reads (k := 0) Script.alikeFor hbegin hfinds
    obtain ⟨hresult, -, hevents, -⟩ := htogether.run
    refine ⟨htogether.mono ?_, hresult, hevents⟩
    rintro c d ⟨k, h⟩
    exact ⟨congrArg List.reverse h.shown, h.reads⟩
  · intro ω _ w v n h hfinds hsame
    rcases hsame with hinputs | htyped
    · exact together_of_inputs Console.alikeGiven h hfinds hinputs
    · have hbegin : w.Abreast (Console.AlikeFor (w.heard n).length) v :=
        ⟨h.cursor, h.phase, h.channel, htyped⟩
      obtain ⟨htogether, -⟩ := together_of_reads (k := 0) Console.alikeFor hbegin hfinds
      exact htogether.mono fun ⟨_, hlike⟩ => hlike.toSame
  · intro w m hrunning n
    have hlike : (w.after m).Like (fun c d => c.inputs = d.inputs)
        (scripted w.document (w.after m).cursor (w.after m).channel.inputs) :=
      ⟨after_document w m, rfl, hrunning, rfl⟩
    refine ⟨together_of_like Script.wears.alike hlike n, ?_⟩
    unfold visited
    congr 1
    funext k
    exact (after_like Script.wears.alike hlike k).next?_eq

/-- The porch and the hall once more, with a list of includes that is none and with a cellar
that is no node. -/
def porchAndCellar : Document :=
  (porch.document.insert Reserved.includes (.string "hall")).insert "cellar" .null

/-- Nobody goes down to the cellar, and nobody is asked a third time. Back at the porch, the
walk goes on as if it began there. -/
theorem depends_on_visits_and_reads_porch :
    ((∃ e, porchAndCellar.node "cellar" = .error e)
      ∧ (scripted porch.document "porch" ["in", Reserved.quit, "in"]).Together
        (fun c d => c.written = d.written ∧ c.reads = d.reads)
        (scripted porchAndCellar "porch" ["in"]) 3)
    ∧ (porch.after 2).Together (fun c d => c.inputs = d.inputs)
      (scripted porch.document "porch" [Reserved.quit]) 7 := by
  obtain ⟨-, hscripts, -, hagain⟩ := depends_on_visits_and_reads
  have hfinds : (scripted porch.document "porch" ["in", Reserved.quit, "in"]).FindsAlike
      porchAndCellar 3 := by
    intro m hm _
    interval_cases m <;> rfl
  have hheard : ((scripted porch.document "porch" ["in", Reserved.quit, "in"]).heard 3).length
      = 2 := by rfl
  have hinputs : ∀ k < 2, ["in", Reserved.quit, "in"][k]?.getD Reserved.quit
      = ["in"][k]?.getD Reserved.quit := by decide
  have hrunning : (porch.after 2).phase = .running := by rfl
  refine ⟨⟨⟨_, rfl⟩, ?_⟩, (hagain porch 2 hrunning 7).1⟩
  exact (hscripts _ _ "porch" _ _ 3 hfinds (by rw [hheard]; exact hinputs)).1

end Walker

end DialogueTree
