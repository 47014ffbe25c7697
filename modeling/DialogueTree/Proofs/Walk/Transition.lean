import DialogueTree.Channel.Script
import DialogueTree.Proofs.Walk.Alike

/-!
# Which directive moves the walk

A step runs at most one directive. Which one is said by `Selects`, without the functions
that a step is made of: from the node and from the inputs that are read on the way, it
tells the directive, and at the same time how many inputs there are. All else about the
new cursor and about the end of the walk is said by that directive alone (`Follows`).

The law of runs is drawn from the law of steps. A walk ends by a step that selects a
directive to quit, and by no other, and every step after it does nothing at all.
-/

namespace DialogueTree

/-! ## The directive of a visit -/

/-- The directive that a node selects once so many inputs have been read. A directive
node always selects its own; a dialogue the first of its entries that is a directive,
if there is one. Only a message reads, and reads once: quitting and staying go before
the options, and an input without an option stands for staying. -/
inductive Selects : Node → List String → Option String → Prop where
  | directive (raw : String) : Selects (.directive raw) [] (some raw)
  | first {lines : List String} {raw : String} {rest : List Entry} :
      Selects (.dialogue (lines.map .text ++ .directive raw :: rest)) [] (some raw)
  | nothing {lines : List String} : Selects (.dialogue (lines.map .text)) [] none
  | quit (prompt : String) (options : Table String) :
      Selects (.message prompt options) [Reserved.quit] (some Reserved.quit)
  | stay (prompt : String) (options : Table String) :
      Selects (.message prompt options) [Reserved.stay] (some Reserved.stay)
  | option {prompt : String} {options : Table String} {input raw : String} :
      input ≠ Reserved.quit → input ≠ Reserved.stay → options.get? input = some raw →
      Selects (.message prompt options) [input] (some raw)
  | other {prompt : String} {options : Table String} {input : String} :
      input ≠ Reserved.quit → input ≠ Reserved.stay → options.get? input = none →
      Selects (.message prompt options) [input] (some Reserved.stay)

theorem firstDirective?_texts (lines : List String) (rest : List Entry) :
    firstDirective? (lines.map .text ++ rest) = firstDirective? rest := by
  induction lines with
  | nil => rfl
  | cons line lines ih => exact ih

theorem selects_dialogue (entries : List Entry) :
    Selects (.dialogue entries) [] (firstDirective? entries) := by
  -- the texts in front are collected until a directive or the end is met
  have hsplit : ∀ lines : List String,
      Selects (.dialogue (lines.map .text ++ entries)) [] (firstDirective? entries) := by
    induction entries with
    | nil =>
      intro lines
      rw [List.append_nil]
      exact .nothing
    | cons entry rest ih =>
      intro lines
      cases entry with
      | directive raw => exact .first
      | text line =>
        have hlines := ih (lines ++ [line])
        rw [List.map_append, List.append_assoc] at hlines
        exact hlines
  exact hsplit []

theorem selects_message (prompt : String) (options : Table String) (input : String) :
    Selects (.message prompt options) [input] (some (chosen options input)) := by
  unfold chosen
  by_cases hquit : input = Reserved.quit
  · rw [if_pos hquit, hquit]
    exact .quit prompt options
  · rw [if_neg hquit]
    by_cases hstay : input = Reserved.stay
    · rw [if_pos hstay, hstay]
      exact .stay prompt options
    · rw [if_neg hstay]
      cases hoption : options.get? input with
      | some raw => exact .option hquit hstay hoption
      | none => exact .other hquit hstay hoption

/-- **What is selected is what a step computes.** -/
theorem selects_iff {node : Node} {inputs : List String} {d : Option String} :
    Selects node inputs d ↔
      match node with
      | .directive raw => inputs = [] ∧ d = some raw
      | .dialogue entries => inputs = [] ∧ d = firstDirective? entries
      | .message _ options => ∃ input, inputs = [input] ∧ d = some (chosen options input) := by
  constructor
  · intro h
    cases h with
    | directive raw => exact ⟨rfl, rfl⟩
    | first =>
      refine ⟨rfl, ?_⟩
      rw [firstDirective?_texts]
      rfl
    | @nothing lines =>
      have hnone := firstDirective?_texts lines []
      rw [List.append_nil] at hnone
      exact ⟨rfl, hnone.symm⟩
    | quit prompt options => exact ⟨_, rfl, rfl⟩
    | stay prompt options => exact ⟨_, rfl, rfl⟩
    | @option prompt options input raw hquit hstay hoption =>
      refine ⟨input, rfl, ?_⟩
      rw [chosen, if_neg hquit, if_neg hstay, hoption, Option.getD_some]
    | @other prompt options input hquit hstay hoption =>
      refine ⟨input, rfl, ?_⟩
      rw [chosen, if_neg hquit, if_neg hstay, hoption, Option.getD_none]
  · intro h
    cases node with
    | directive raw =>
      obtain ⟨rfl, rfl⟩ := h
      exact .directive raw
    | dialogue entries =>
      obtain ⟨rfl, rfl⟩ := h
      exact selects_dialogue entries
    | message prompt options =>
      obtain ⟨input, rfl, rfl⟩ := h
      exact selects_message prompt options input

/-- How many inputs a visit of a node reads. -/
def Node.reads : Node → Nat
  | .message .. => 1
  | _ => 0

theorem Selects.length_inputs {node : Node} {inputs : List String} {d : Option String}
    (h : Selects node inputs d) : inputs.length = node.reads := by
  cases h <;> rfl

theorem Selects.unique {node : Node} {inputs : List String} {d d' : Option String}
    (h : Selects node inputs d) (h' : Selects node inputs d') : d = d' := by
  rw [selects_iff] at h h'
  cases node with
  | directive raw => rw [h.2, h'.2]
  | dialogue entries => rw [h.2, h'.2]
  | message prompt options =>
    obtain ⟨input, rfl, rfl⟩ := h
    obtain ⟨_, hinput, rfl⟩ := h'
    cases hinput
    rfl

/-! ## One step -/

/-- What the line means, if there is one. -/
def Means (d : Option String) (x : Directive) : Prop :=
  ∃ raw, d = some raw ∧ Directive.parse raw = .ok x

/-- A step does to a walker what a directive says, or nothing if there is none: the walk
is ended by a directive to quit and by no other, and the cursor is moved by a directive
to go somewhere and by no other. -/
structure Follows {σ : Type} (w : Walker σ) (d : Option String) (s : Step σ) : Prop where
  answers : s.result = .ok s.walker.phase
  ends : s.walker.phase = .terminated ↔ Means d .quit
  moves : ∀ target, Means d (.goto target) → s.walker.cursor = target
  keeps : (∀ target, ¬ Means d (.goto target)) → s.walker.cursor = w.cursor
  document : s.walker.document = w.document

namespace Walker

variable {σ : Type}

/-- A directive that runs without a failure is followed. -/
theorem obey_follows {w : Walker σ} {raw : String} {events : List Event} {phase : Phase}
    (hrunning : w.phase = .running) (h : (w.obey raw events).result = .ok phase) :
    Follows w (some raw) (w.obey raw events) := by
  unfold obey at h ⊢
  cases hparse : Directive.parse raw with
  | error e =>
    rw [hparse] at h
    cases h
  | ok d =>
    -- the line has one meaning, so the form of `d` decides every clause
    have hmeans : ∀ x, Means (some raw) x ↔ d = x := by
      intro x
      simp [Means, hparse]
    cases d with
    | quit =>
      refine ⟨rfl, ?_, ?_, fun _ => rfl, rfl⟩
      · simp [Directive.flow, hmeans]
      · intro target hgoto
        cases (hmeans _).mp hgoto
    | goto target =>
      refine ⟨rfl, ?_, ?_, ?_, rfl⟩
      · simp [Directive.flow, hmeans, hrunning]
      · intro other hgoto
        cases (hmeans _).mp hgoto
        rfl
      · intro hno
        exact absurd ((hmeans _).mpr rfl) (hno target)
    | stay | ignored line =>
      refine ⟨rfl, ?_, ?_, fun _ => rfl, rfl⟩
      · simp [Directive.flow, hmeans, hrunning]
      · intro target hgoto
        cases (hmeans _).mp hgoto

theorem obey_channel (w : Walker σ) (raw : String) (events : List Event) :
    (w.obey raw events).walker.channel = w.channel := by
  unfold obey
  cases Directive.parse raw with
  | error e => rfl
  | ok d =>
    dsimp only
    cases d.flow <;> rfl

theorem nothing_follows {w : Walker σ} (hrunning : w.phase = .running) (events : List Event) :
    Follows w none ⟨.ok w.phase, w, events⟩ := by
  have hnone : ∀ x, ¬ Means none x := by
    intro x hx
    obtain ⟨raw, hraw, -⟩ := hx
    cases hraw
  refine ⟨rfl, ?_, ?_, fun _ => rfl, rfl⟩
  · rw [hrunning]
    exact ⟨nofun, fun hquit => absurd hquit (hnone _)⟩
  · intro target hgoto
    exact absurd hgoto (hnone _)

theorem follows_of_channel {w : Walker σ} {channel : σ} {d : Option String} {s : Step σ}
    (h : Follows { w with channel } d s) : Follows w d s :=
  ⟨h.answers, h.ends, h.moves, h.keeps, h.document⟩

theorem follows_of_like {τ : Type} {R : τ → σ → Prop} {v : Walker τ} {w : Walker σ} {r : Step τ}
    {s : Step σ} {d : Option String} (hwalker : v.Like R w) (hstep : r.Like R s)
    (h : Follows v d r) : Follows w d s where
  answers := by rw [← hstep.result, h.answers, hstep.walker.phase]
  ends := by rw [← hstep.walker.phase, h.ends]
  moves := by
    intro target hgoto
    rw [← hstep.walker.cursor, h.moves target hgoto]
  keeps := by
    intro hno
    rw [← hstep.walker.cursor, h.keeps hno, hwalker.cursor]
  document := by rw [← hstep.walker.document, h.document, hwalker.document]

variable [Channel σ]

/-- What comes after lines that were shown is reached over a channel that has shown them. -/
theorem afterShowing_ok {w : Walker σ} {lines : List String} {events : List Event}
    {next : Walker σ → Step σ} {phase : Phase}
    (h : (w.afterShowing lines events next).result = .ok phase) :
    w.afterShowing lines events next
      = next { w with channel := (Channel.writeAll w.channel lines).2 } := by
  unfold afterShowing at h ⊢
  generalize Channel.writeAll w.channel lines = x at h ⊢
  obtain ⟨answer, channel⟩ := x
  cases answer with
  | ok _ => rfl
  | error fault => cases h

/-- **A visit runs the directive that is selected by what it reads.** -/
theorem visit_follows {w : Walker (Recorded σ)} {events : List Event} {node : Node} {phase : Phase}
    (hrunning : w.phase = .running) (h : (w.visit events node).result = .ok phase) :
    ∃ inputs d, (w.visit events node).walker.channel.inputs = w.channel.inputs ++ inputs
      ∧ Selects node inputs d ∧ Follows w d (w.visit events node) := by
  cases node with
  | directive raw =>
    refine ⟨[], some raw, ?_, .directive raw, obey_follows hrunning h⟩
    rw [List.append_nil]
    exact congrArg Recorded.inputs (obey_channel w raw events)
  | dialogue entries =>
    have hinputs := Recorded.inputs_writeAll w.channel (shownLines entries)
    have hselects := selects_dialogue entries
    have hvisit : w.visit events (.dialogue entries) = _ := afterShowing_ok h
    rw [hvisit] at h ⊢
    generalize (Channel.writeAll w.channel (shownLines entries)).2 = c at hinputs h ⊢
    cases hfirst : firstDirective? entries with
    | none =>
      simp only [hfirst] at h hselects ⊢
      have hfollows := nothing_follows (w := { w with channel := c }) hrunning events
      refine ⟨[], none, ?_, hselects, follows_of_channel hfollows⟩
      rw [List.append_nil, hinputs]
    | some raw =>
      simp only [hfirst] at h hselects ⊢
      refine ⟨[], some raw, ?_, hselects, follows_of_channel (obey_follows hrunning h)⟩
      rw [List.append_nil, obey_channel, hinputs]
  | message prompt options =>
    -- the prompt is shown before anything is read, so the input is the only one
    have hinputs := Recorded.inputs_writeAll w.channel [prompt]
    have hvisit : w.visit events (.message prompt options) = _ := afterShowing_ok h
    rw [hvisit] at h ⊢
    generalize (Channel.writeAll w.channel [prompt]).2 = c at hinputs h ⊢
    unfold ask at h ⊢
    dsimp only at h ⊢
    refine ⟨_, _, ?_, selects_message prompt options (Channel.read c).1,
      follows_of_channel (obey_follows hrunning h)⟩
    rw [obey_channel, Recorded.inputs_read, hinputs]

theorem step_running {w : Walker σ} (h : w.phase = .running) :
    w.step = match w.document.node w.cursor with
      | .error e => w.failed e []
      | .ok node => w.visit [.visiting w.cursor] node := by
  unfold step
  split
  · next hterminated =>
    rw [h] at hterminated
    cases hterminated
  · rfl

/-- **A step of a running walk runs the directive that its node selects.** -/
theorem step_follows {w : Walker σ} {phase : Phase} (hrunning : w.phase = .running)
    (h : w.step.result = .ok phase) :
    ∃ node d, w.document.node w.cursor = .ok node ∧ Selects node w.inputsRead d
      ∧ Follows w d w.step := by
  -- what is read shows over the channel that remembers; likeness carries the rest back
  have hlike := step_recorded w
  have hok : w.recorded.step.result = .ok phase := by rw [hlike.result, h]
  have hstep := step_running (w := w.recorded) hrunning
  rw [show w.recorded.document.node w.recorded.cursor = w.document.node w.cursor from rfl] at hstep
  cases hnode : w.document.node w.cursor with
  | error e =>
    rw [hstep, hnode] at hok
    cases hok
  | ok node =>
    rw [hnode] at hstep
    dsimp only at hstep
    rw [hstep] at hok
    obtain ⟨inputs, d, hinputs, hselects, hfollows⟩ := visit_follows (w := w.recorded) hrunning hok
    rw [← hstep] at hinputs hfollows
    have hread : w.inputsRead = inputs := hinputs
    refine ⟨node, d, rfl, by rw [hread]; exact hselects, ?_⟩
    exact follows_of_like (v := w.recorded) ⟨rfl, rfl, rfl, rfl⟩ hlike hfollows

/-! ## Runs -/

theorem obey_error {σ : Type} {w : Walker σ} {raw : String} {events : List Event} {e : Error}
    (h : (w.obey raw events).result = .error e) : (w.obey raw events).walker = w := by
  unfold obey at h ⊢
  cases hparse : Directive.parse raw with
  | error e' => rfl
  | ok d =>
    rw [hparse] at h
    dsimp only at h
    cases hflow : d.flow <;> rw [hflow] at h <;> cases h

/-- If what comes after the lines fails without a trace but on the channel, so does the
whole. -/
theorem afterShowing_error {w : Walker σ} {lines : List String} {events : List Event}
    {next : Walker σ → Step σ} {e : Error}
    (hnext : ∀ c, (next { w with channel := c }).result = .error e →
      ∃ channel, (next { w with channel := c }).walker = { w with channel })
    (h : (w.afterShowing lines events next).result = .error e) :
    ∃ channel, (w.afterShowing lines events next).walker = { w with channel } := by
  unfold afterShowing at h ⊢
  generalize Channel.writeAll w.channel lines = x at h ⊢
  obtain ⟨answer, c⟩ := x
  cases answer with
  | ok _ => exact hnext c h
  | error fault => exact ⟨c, rfl⟩

theorem visit_error {w : Walker σ} {events : List Event} {node : Node} {e : Error}
    (h : (w.visit events node).result = .error e) :
    ∃ channel, (w.visit events node).walker = { w with channel } := by
  unfold visit at h ⊢
  cases node with
  | directive raw => exact ⟨w.channel, obey_error h⟩
  | dialogue entries =>
    refine afterShowing_error ?_ h
    intro c hrest
    cases hfirst : firstDirective? entries with
    | none =>
      rw [hfirst] at hrest
      cases hrest
    | some raw =>
      rw [hfirst] at hrest
      exact ⟨c, obey_error hrest⟩
  | message prompt options =>
    refine afterShowing_error ?_ h
    intro c hrest
    exact ⟨(Channel.read c).2, obey_error hrest⟩

/-- **A step that fails changes nothing but the channel.** -/
theorem step_error {w : Walker σ} {e : Error} (hrunning : w.phase = .running)
    (h : w.step.result = .error e) : ∃ channel, w.step.walker = { w with channel } := by
  rw [step_running hrunning] at h ⊢
  cases hnode : w.document.node w.cursor with
  | error e' => exact ⟨w.channel, rfl⟩
  | ok node =>
    rw [hnode] at h
    exact visit_error h

/-- **A walk that has ended stays as it is.** -/
theorem step_terminated {w : Walker σ} (h : w.phase = .terminated) :
    w.step = ⟨.ok .terminated, w, []⟩ := by
  simp only [step, h]

/-- The walker after so many steps. Also after a step that fails the next one is made. -/
def after (w : Walker σ) : Nat → Walker σ
  | 0 => w
  | n + 1 => (w.after n).step.walker

theorem after_step (w : Walker σ) (n : Nat) : w.step.walker.after n = w.after (n + 1) := by
  induction n with
  | zero => rfl
  | succ n ih =>
    show (w.step.walker.after n).step.walker = (w.after (n + 1)).step.walker
    rw [ih]

/-- A run is made of as many steps as it says. -/
theorem run_walker (n : Nat) (w : Walker σ) : (w.run n).walker = w.after (w.run n).steps := by
  induction n generalizing w with
  | zero => rfl
  | succ n ih =>
    unfold run
    dsimp only
    split
    · -- the rest of the run begins where the first step ends
      have hrest := ih w.step.walker
      rw [after_step] at hrest
      exact hrest
    · rfl

theorem after_terminated {w : Walker σ} {m : Nat} (h : (w.after m).phase = .terminated) (k : Nat) :
    w.after (m + k) = w.after m := by
  induction k with
  | zero => rfl
  | succ k ih =>
    show (w.after (m + k)).step.walker = w.after m
    rw [ih, step_terminated h]

/-- A walk ends where a node selects a directive to quit. -/
def Quits (w : Walker σ) : Prop :=
  w.phase = .running ∧ w.step.result = .ok .terminated ∧ w.step.walker.phase = .terminated
    ∧ ∃ node d, w.document.node w.cursor = .ok node ∧ Selects node w.inputsRead d ∧ Means d .quit

theorem quits_of_step {w : Walker σ} (hrunning : w.phase = .running)
    (hend : w.step.walker.phase = .terminated) : w.Quits := by
  cases hresult : w.step.result with
  | error e =>
    obtain ⟨channel, hkept⟩ := step_error hrunning hresult
    rw [hkept, hrunning] at hend
    cases hend
  | ok phase =>
    obtain ⟨node, d, hnode, hselects, hfollows⟩ := step_follows hrunning hresult
    have hanswer := hfollows.answers
    rw [hend] at hanswer
    exact ⟨hrunning, hanswer, hend, node, d, hnode, hselects, hfollows.ends.mp hend⟩

/-- The last running moment of a walk that ends is that of a step that quits. -/
theorem exists_quits {w : Walker σ} (hrunning : w.phase = .running) {n : Nat}
    (hend : (w.after n).phase = .terminated) : ∃ m < n, (w.after m).Quits := by
  induction n with
  | zero =>
    rw [show (w.after 0).phase = .running from hrunning] at hend
    cases hend
  | succ n ih =>
    -- if the walk still ran before the last step, it was that step
    cases hphase : (w.after n).phase with
    | running => exact ⟨n, Nat.lt_succ_self n, quits_of_step hphase hend⟩
    | terminated =>
      obtain ⟨m, hm, hquits⟩ := ih hphase
      exact ⟨m, Nat.lt_succ_of_lt hm, hquits⟩

/-- **The law of the walk.** A step that succeeds runs the directive that is selected by
the node under the cursor and by what is read, which is one input at a message and none
elsewhere; that the inputs are written down for it changes nothing about the step. A walk
that has ended was ended by one step that quits, and all steps behind it do nothing: they
say that the walk has ended, tell no event, and leave the walker, its channel included, as
it is. -/
theorem transition_law {w : Walker σ} (hrunning : w.phase = .running) :
    (∀ phase, w.step.result = .ok phase →
      ∃ node, w.document.node w.cursor = .ok node ∧ w.inputsRead.length = node.reads
        ∧ (∃ d, Selects node w.inputsRead d)
        ∧ ∀ d, Selects node w.inputsRead d → Follows w d w.step)
    ∧ w.recorded.step.Like (fun c d => c.channel = d) w.step
    ∧ (∀ n, (w.run n).walker = w.after (w.run n).steps)
    ∧ ∀ n, (w.after n).phase = .terminated →
      ∃ m < n, (w.after m).Quits
        ∧ ∀ k, m < k → w.after k = w.after (m + 1)
          ∧ (w.after k).step = ⟨.ok .terminated, w.after k, []⟩ := by
  refine ⟨?_, step_recorded w, fun n => run_walker n w, ?_⟩
  · intro phase hok
    obtain ⟨node, d, hnode, hselects, hfollows⟩ := step_follows hrunning hok
    refine ⟨node, hnode, hselects.length_inputs, ⟨d, hselects⟩, ?_⟩
    intro d' hselects'
    rw [hselects'.unique hselects]
    exact hfollows
  · intro n hend
    obtain ⟨m, hm, hquits⟩ := exists_quits hrunning hend
    refine ⟨m, hm, hquits, ?_⟩
    intro k hk
    have hterminated : (w.after (m + 1)).phase = .terminated := hquits.2.2.1
    have hsame : w.after k = w.after (m + 1) := by
      rw [← after_terminated hterminated (k - (m + 1))]
      congr 1
      omega
    refine ⟨hsame, step_terminated ?_⟩
    rw [hsame]
    exact hterminated

/-- A walk from a porch into a hall and back. At the porch an option that is named like
the directive to quit would lead into the hall, too. -/
def porch : Walker Script where
  document := .ofList [
    ("porch", .array [.string "msg", .string "Where to?", .object [
      ("in", .string "::GOTO hall"), (Reserved.quit, .string "::GOTO hall")]]),
    ("hall", .array [.string "dialogue", .array [
      .string "Nobody is here.", .string "::GOTO porch", .string Reserved.quit]])]
  cursor := "porch"
  channel := { inputs := ["in", Reserved.quit] }

/-- The walk goes through the hall, and ends at the porch all the same. -/
theorem transition_law_porch :
    (porch.step.result = .ok .running ∧ (porch.after 3).phase = .terminated)
      ∧ (∃ node, porch.document.node porch.cursor = .ok node
        ∧ ∀ d, Selects node porch.inputsRead d → Follows porch d porch.step)
      ∧ ∃ m < 3, (porch.after m).Quits
        ∧ ∀ k, m < k → porch.after k = porch.after (m + 1) := by
  have hrunning : porch.phase = .running := rfl
  have hok : porch.step.result = .ok .running := by rfl
  have hend : (porch.after 3).phase = .terminated := by rfl
  obtain ⟨hstep, -, -, hruns⟩ := transition_law hrunning
  obtain ⟨node, hnode, -, -, hfollows⟩ := hstep .running hok
  obtain ⟨m, hm, hquits, hstays⟩ := hruns 3 hend
  exact ⟨⟨hok, hend⟩, ⟨node, hnode, hfollows⟩, m, hm, hquits, fun k hk => (hstays k hk).1⟩

end Walker

end DialogueTree
