import DialogueTree.Proofs.Walk.Transition

/-!
# What a visit does to its channel

A visit first shows lines, then reads if the node is a message, and then runs at most one
directive. The first two parts are all that it does to the channel. They are told apart
here once (`visit_eq`), and whatever is said later about output, about input or about
failures starts from that.

A step is then known by the node that it visits (`next?`), and a walk by the nodes that it
visits in turn (`visited`).
-/

namespace DialogueTree

theorem Channel.writeAll_cons_of_ok {σ : Type} [Channel σ] {c : σ} {line : String}
    (h : (Channel.write c line).1 = .ok ()) (rest : List String) :
    Channel.writeAll c (line :: rest) = Channel.writeAll (Channel.write c line).2 rest := by
  rw [Channel.writeAll]
  generalize Channel.write c line = x at h ⊢
  obtain ⟨answer, c'⟩ := x
  cases h
  rfl

theorem Channel.writeAll_cons_of_error {σ : Type} [Channel σ] {c : σ} {line : String}
    {fault : OutputFault} (h : (Channel.write c line).1 = .error fault) (rest : List String) :
    Channel.writeAll c (line :: rest) = (.error fault, (Channel.write c line).2) := by
  rw [Channel.writeAll]
  generalize Channel.write c line = x at h ⊢
  obtain ⟨answer, c'⟩ := x
  cases h
  rfl

/-- The line that an entry shows, if it is one to show. -/
def Entry.line? : Entry → Option String
  | .text line => some line
  | .directive _ => none

namespace Node

/-- The lines that a visit shows: the texts of a dialogue in front of its first directive,
and the prompt of a message. -/
def visibleLines : Node → List String
  | .directive _ => []
  | .dialogue entries => (entries.takeWhile (·.line?.isSome)).filterMap Entry.line?
  | .message prompt _ => [prompt]

/-- The channel behind the input that a node reads, if it reads one. -/
def answered {σ : Type} [Channel σ] (c : σ) : Node → σ
  | .message .. => (Channel.read c).2
  | _ => c

theorem answered_keeps {σ : Type} [Channel σ] {P : σ → Prop} {c : σ} (node : Node)
    (hread : ∀ c, P c → P (Channel.read c).2) (h : P c) : P (node.answered c) := by
  cases node with
  | directive raw => exact h
  | dialogue entries => exact h
  | message prompt options => exact hread c h

end Node

theorem shownLines_eq (entries : List Entry) :
    shownLines entries = (Node.dialogue entries).visibleLines := by
  induction entries with
  | nil => rfl
  | cons entry rest ih =>
    cases entry with
    | text line => exact congrArg (line :: ·) ih
    | directive raw => rfl

namespace Walker

variable {σ : Type}

/-- What a visit does once its lines are shown. -/
def conclude [Channel σ] (w : Walker σ) (events : List Event) : Node → Step σ
  | .directive raw => w.obey raw events
  | .dialogue entries =>
    match firstDirective? entries with
    | some raw => w.obey raw events
    | none => ⟨.ok w.phase, w, events⟩
  | .message _ options => w.ask options events

theorem conclude_channel [Channel σ] (w : Walker σ) (events : List Event) (node : Node) :
    (w.conclude events node).walker.channel = node.answered w.channel := by
  cases node with
  | directive raw => exact obey_channel w raw events
  | dialogue entries =>
    unfold conclude
    dsimp only
    cases firstDirective? entries with
    | none => rfl
    | some raw => exact obey_channel w raw events
  | message prompt options => exact obey_channel _ _ _

/-- **A visit shows the lines of its node, and then does the rest.** -/
theorem visit_eq [Channel σ] (w : Walker σ) (events : List Event) (node : Node) :
    w.visit events node
      = w.afterShowing node.visibleLines events fun w' => w'.conclude events node := by
  cases node with
  | directive raw => rfl
  | dialogue entries =>
    rw [← shownLines_eq]
    rfl
  | message prompt options => rfl

/-! ## One step -/

/-- The node that the next step visits. There is none once the walk has ended, and none if
the cursor does not name one. -/
def next? (w : Walker σ) : Option Node :=
  match w.phase with
  | .running => (w.document.node w.cursor).toOption
  | .terminated => none

theorem next?_eq_some_iff {w : Walker σ} {node : Node} :
    w.next? = some node ↔ w.phase = .running ∧ w.document.node w.cursor = .ok node := by
  unfold next?
  cases w.phase with
  | terminated => simp
  | running => cases w.document.node w.cursor <;> simp [Except.toOption]

theorem next?_eq_none {w : Walker σ} {e : Error} (h : w.document.node w.cursor = .error e) :
    w.next? = none := by
  unfold next?
  rw [h]
  cases w.phase <;> rfl

theorem Like.next?_eq {τ : Type} {R : σ → τ → Prop} {w : Walker σ} {v : Walker τ}
    (h : w.Like R v) : w.next? = v.next? := by
  unfold next?
  rw [h.phase, h.document, h.cursor]

variable [Channel σ]

theorem step_of_next? {w : Walker σ} {node : Node} (h : w.next? = some node) :
    w.step = w.afterShowing node.visibleLines [.visiting w.cursor]
      fun w' => w'.conclude [.visiting w.cursor] node := by
  obtain ⟨hrunning, hnode⟩ := next?_eq_some_iff.mp h
  rw [step_running hrunning, hnode]
  exact visit_eq w _ node

/-- **A step that visits nothing changes nothing.** -/
theorem step_of_next?_none {w : Walker σ} (h : w.next? = none) : w.step.walker = w := by
  unfold next? at h
  cases hphase : w.phase with
  | terminated => rw [step_terminated hphase]
  | running =>
    rw [hphase] at h
    rw [step_running hphase]
    cases hnode : w.document.node w.cursor with
    | error e => rfl
    | ok node =>
      rw [hnode] at h
      cases h

/-- A step that can show the lines of the node goes on to do the rest. -/
theorem step_of_shown {w : Walker σ} {node : Node} (h : w.next? = some node)
    (hshown : (Channel.writeAll w.channel node.visibleLines).1 = .ok ()) :
    w.step
      = conclude { w with channel := (Channel.writeAll w.channel node.visibleLines).2 }
          [.visiting w.cursor] node := by
  rw [step_of_next? h]
  unfold afterShowing
  generalize Channel.writeAll w.channel node.visibleLines = x at hshown ⊢
  obtain ⟨answer, c⟩ := x
  cases hshown
  rfl

theorem step_channel {w : Walker σ} {node : Node} (h : w.next? = some node)
    (hshown : (Channel.writeAll w.channel node.visibleLines).1 = .ok ()) :
    w.step.walker.channel
      = node.answered (Channel.writeAll w.channel node.visibleLines).2 := by
  rw [step_of_shown h hshown]
  exact conclude_channel _ _ node

/-- A step that cannot show all lines of the node does nothing else. -/
theorem step_of_fault {w : Walker σ} {node : Node} {fault : OutputFault}
    (h : w.next? = some node)
    (hshown : (Channel.writeAll w.channel node.visibleLines).1 = .error fault) :
    w.step = ⟨.error (.output fault),
      { w with channel := (Channel.writeAll w.channel node.visibleLines).2 },
      [.visiting w.cursor]⟩ := by
  rw [step_of_next? h]
  unfold afterShowing
  generalize Channel.writeAll w.channel node.visibleLines = x at hshown ⊢
  obtain ⟨answer, c⟩ := x
  cases hshown
  rfl

theorem step_document (w : Walker σ) : w.step.walker.document = w.document := by
  cases hphase : w.phase with
  | terminated => rw [step_terminated hphase]
  | running =>
    cases hresult : w.step.result with
    | error e =>
      obtain ⟨channel, hkept⟩ := step_error hphase hresult
      rw [hkept]
    | ok phase =>
      obtain ⟨node, d, -, -, hfollows⟩ := step_follows hphase hresult
      exact hfollows.document

/-! ## Runs -/

theorem after_document (w : Walker σ) (n : Nat) : (w.after n).document = w.document := by
  induction n with
  | zero => rfl
  | succ n ih => exact (step_document _).trans ih

theorem after_after (w : Walker σ) (m n : Nat) : (w.after m).after n = w.after (m + n) := by
  induction n with
  | zero => rfl
  | succ n ih => exact congrArg (fun v => v.step.walker) ih

/-- A walk over a script that has not begun. -/
def scripted (doc : Document) (start : String) (inputs : List String) : Walker Script :=
  { document := doc, cursor := start, channel := { inputs } }

/-- **Walkers over channels that answer alike stay alike.** -/
theorem after_like {τ : Type} [Channel τ] {R : σ → τ → Prop} {w : Walker σ} {v : Walker τ}
    (hR : Channel.Alike R) (h : w.Like R v) (n : Nat) : (w.after n).Like R (v.after n) := by
  induction n with
  | zero => exact h
  | succ n ih => exact (step_like hR ih).walker

/-- The nodes that are visited in so many steps, in order. -/
def visited (w : Walker σ) (n : Nat) : List Node :=
  (List.range n).filterMap fun k => (w.after k).next?

theorem visited_succ (w : Walker σ) (n : Nat) :
    w.visited (n + 1) = w.visited n ++ (w.after n).next?.toList := by
  unfold visited
  rw [List.range_succ, List.filterMap_append]
  cases h : (w.after n).next? <;> simp [h]

end Walker

end DialogueTree
