import DialogueTree.Channel.Console
import DialogueTree.Proofs.Node.Directives
import DialogueTree.Proofs.Walk.Visit

/-!
# Steps that fail

A step can fail in two ways. Either there is no node under the cursor, and then nothing
at all has happened; or one of the lines of the node cannot be shown. In neither case has
anything been read, because reading comes after the lines, and what comes after reading
cannot fail: the directive that is run then is never blank.

So a step that fails leaves the walk where it was, and loses no input. Where it failed for
the node, it goes on to fail in the same way.
-/

namespace DialogueTree

/-- The errors of looking up a node. -/
inductive Error.OfNode : Error → Prop where
  | unknown (id : String) : OfNode (.unknownNode id)
  | malformed (id : String) (fault : NodeFault) : OfNode (.malformedNode id fault)

theorem Document.ofNode_of_node {doc : Document} {id : String} {e : Error}
    (h : doc.node id = .error e) : e.OfNode := by
  unfold Document.node at h
  split at h
  · next raw _ =>
    unfold Node.classify at h
    cases hread : Node.read raw with
    | ok node =>
      rw [hread] at h
      cases h
    | error fault =>
      rw [hread] at h
      cases h
      exact .malformed id fault
  · cases h
    exact .unknown id

/-! ## What follows the lines cannot fail -/

theorem firstDirective?_mem {entries : List Entry} {raw : String}
    (h : firstDirective? entries = some raw) : raw ∈ (Node.dialogue entries).directives := by
  induction entries with
  | nil => cases h
  | cons entry rest ih =>
    cases entry with
    | text line => exact ih h
    | directive first =>
      cases h
      exact List.mem_cons_self

theorem isDirective_chosen {prompt : String} {options : Table String}
    (h : ∀ line ∈ (Node.message prompt options).directives, isDirective line = true)
    (input : String) : isDirective (chosen options input) = true := by
  unfold chosen
  split
  · decide
  · split
    · decide
    · cases hoption : options.get? input with
      | none => decide
      | some raw =>
        obtain ⟨before, behind, hentries, -⟩ := List.lookup_eq_some_iff.mp hoption
        apply h raw
        exact List.mem_map.mpr ⟨(input, raw), by rw [hentries]; simp, rfl⟩

namespace Walker

theorem obey_ok {σ : Type} (w : Walker σ) {raw : String} (events : List Event)
    (h : isDirective raw = true) : ∃ phase, (w.obey raw events).result = .ok phase := by
  obtain ⟨d, hparse⟩ := exists_parse_of_isDirective h
  unfold obey
  rw [hparse]
  dsimp only
  cases d.flow <;> exact ⟨_, rfl⟩

variable {σ : Type} [Channel σ]

/-- **Once the lines of a node are shown, its visit succeeds.** -/
theorem conclude_ok (w : Walker σ) (events : List Event) {node : Node}
    (h : ∀ line ∈ node.directives, isDirective line = true) :
    ∃ phase, (w.conclude events node).result = .ok phase := by
  cases node with
  | directive raw => exact obey_ok w events (h raw (List.mem_singleton.mpr rfl))
  | dialogue entries =>
    unfold conclude
    dsimp only
    cases hfirst : firstDirective? entries with
    | none => exact ⟨_, rfl⟩
    | some raw => exact obey_ok w events (h raw (firstDirective?_mem hfirst))
  | message prompt options => exact obey_ok _ _ (isDirective_chosen h _)

/-! ## Steps that fail -/

/-- A step fails because there is no node under the cursor, or because a line of the node
cannot be shown. -/
theorem step_error_cases {w : Walker σ} {e : Error} (h : w.step.result = .error e) :
    w.phase = .running
      ∧ (w.document.node w.cursor = .error e ∧ w.step = ⟨.error e, w, []⟩
        ∨ ∃ (node : Node) (fault : OutputFault), e = .output fault
          ∧ (Channel.writeAll w.channel node.visibleLines).1 = .error fault
          ∧ w.step.walker
            = { w with channel := (Channel.writeAll w.channel node.visibleLines).2 }) := by
  cases hphase : w.phase with
  | terminated =>
    rw [step_terminated hphase] at h
    cases h
  | running =>
    refine ⟨rfl, ?_⟩
    cases hnode : w.document.node w.cursor with
    | error e' =>
      rw [step_running hphase, hnode] at h
      cases h
      left
      refine ⟨rfl, ?_⟩
      rw [step_running hphase, hnode]
      rfl
    | ok node =>
      have hnext : w.next? = some node := next?_eq_some_iff.mpr ⟨hphase, hnode⟩
      right
      cases hshown : (Channel.writeAll w.channel node.visibleLines).1 with
      | error fault =>
        have hstep := step_of_fault hnext hshown
        rw [hstep] at h
        cases h
        exact ⟨node, fault, rfl, hshown, by rw [hstep, hphase]⟩
      | ok _ =>
        -- behind the lines there is only what cannot fail
        obtain ⟨phase, hok⟩ := conclude_ok
          { w with channel := (Channel.writeAll w.channel node.visibleLines).2 }
          [.visiting w.cursor] (w.document.isDirective_of_node hnode)
        rw [step_of_shown hnext hshown, hok] at h
        cases h

/-- **A step that fails has read nothing.** -/
theorem inputsRead_of_error {w : Walker σ} {e : Error} (h : w.step.result = .error e) :
    w.inputsRead = [] := by
  -- a channel that remembers has been shown lines, but was asked for nothing
  have hrecorded : w.recorded.step.result = .error e := by rw [(step_recorded w).result, h]
  unfold inputsRead
  rcases (step_error_cases hrecorded).2 with ⟨-, hstep⟩ | ⟨node, fault, -, -, hwalker⟩
  · rw [hstep]
    rfl
  · rw [hwalker]
    exact Recorded.inputs_writeAll _ _

theorem step_of_ofNode {w : Walker σ} {e : Error} (h : w.step.result = .error e)
    (hnode : e.OfNode) : w.step = ⟨.error e, w, []⟩ := by
  rcases (step_error_cases h).2 with ⟨-, hstep⟩ | ⟨node, fault, houtput, -, -⟩
  · exact hstep
  · rw [houtput] at hnode
    cases hnode

theorem after_of_step_eq {w : Walker σ} (h : w.step.walker = w) (n : Nat) : w.after n = w := by
  induction n with
  | zero => rfl
  | succ n ih =>
    show (w.after n).step.walker = w
    rw [ih, h]

end Walker

/-! ## What it means for the two kinds of channels -/

theorem Script.writeAll_ok (s : Script) (lines : List String) :
    (Channel.writeAll s lines).1 = .ok () := by
  induction lines generalizing s with
  | nil => rfl
  | cons line rest ih => exact ih (s.write line)

theorem Console.writeAll_input {ω : Type} [Writer ω] (c : Console ω) (lines : List String) :
    ∃ sink filter, (Channel.writeAll c lines).2 = { c with sink, filter } := by
  induction lines generalizing c with
  | nil => exact ⟨c.sink, c.filter, rfl⟩
  | cons line rest ih =>
    have hfirst : ∃ sink filter, (Channel.write c line).2 = { c with sink, filter } := by
      show ∃ sink filter, (c.write line).2 = { c with sink, filter }
      unfold Console.write
      split <;> exact ⟨_, _, rfl⟩
    obtain ⟨sink, filter, hwrite⟩ := hfirst
    unfold Channel.writeAll
    generalize Channel.write c line = x at hwrite ⊢
    obtain ⟨answer, c'⟩ := x
    subst hwrite
    cases answer with
    | ok _ =>
      obtain ⟨sink', filter', hrest⟩ := ih { c with sink, filter }
      exact ⟨sink', filter', hrest⟩
    | error fault => exact ⟨sink, filter, rfl⟩

namespace Walker

/-- Over a script a step fails only for the node. -/
theorem script_error {w : Walker Script} {e : Error} (h : w.step.result = .error e) :
    w.document.node w.cursor = .error e ∧ w.step = ⟨.error e, w, []⟩ := by
  rcases (step_error_cases h).2 with hnode | ⟨node, fault, -, hshown, -⟩
  · exact hnode
  · rw [Script.writeAll_ok] at hshown
    cases hshown

/-- **A step that fails leaves the walk where it was.** It changes neither the document nor
the cursor nor that the walk runs, and reads nothing. If it fails for the node it does not
touch the channel either, tells no event, and every later step is the same. Over a script a
step can fail in no other way. Over a console, whatever its writer does, it keeps the input
and the prompt. -/
theorem failing_step_stays :
    (∀ {σ : Type} [Channel σ] (w : Walker σ) (e : Error), w.step.result = .error e →
      w.phase = .running ∧ (∃ channel, w.step.walker = { w with channel })
        ∧ w.inputsRead = []
        ∧ (e.OfNode → w.step = ⟨.error e, w, []⟩ ∧ ∀ n, (w.after n).step = w.step))
    ∧ (∀ (w : Walker Script) (e : Error), w.step.result = .error e →
      e.OfNode ∧ w.step.walker = w)
    ∧ ∀ {ω : Type} [Writer ω] (w : Walker (Console ω)) (e : Error), w.step.result = .error e →
      ∃ sink filter, w.step.walker = { w with channel := { w.channel with sink, filter } } := by
  refine ⟨?_, ?_, ?_⟩
  · intro σ _ w e h
    obtain ⟨hrunning, -⟩ := step_error_cases h
    refine ⟨hrunning, step_error hrunning h, inputsRead_of_error h, ?_⟩
    intro hnode
    have hstep := step_of_ofNode h hnode
    refine ⟨hstep, ?_⟩
    intro n
    rw [after_of_step_eq (by rw [hstep]) n]
  · intro w e h
    obtain ⟨hnode, hstep⟩ := script_error h
    exact ⟨Document.ofNode_of_node hnode, by rw [hstep]⟩
  · intro ω _ w e h
    rcases (step_error_cases h).2 with ⟨-, hstep⟩ | ⟨node, fault, -, -, hwalker⟩
    · exact ⟨w.channel.sink, w.channel.filter, by rw [hstep]⟩
    · obtain ⟨sink, filter, hkept⟩ := Console.writeAll_input w.channel node.visibleLines
      exact ⟨sink, filter, by rw [hwalker, hkept]⟩

/-- A cellar of which two lines are to be told, over a writer with room for the first. From
there a stair leads nowhere. -/
def cellar : Walker Console where
  document := .ofList [
    ("cellar", .array [.string "dialogue", .array [
      .string "It is dark.", .string "It is cold.", .string "::GOTO stair"]])]
  cursor := "cellar"
  channel := { input := Text.encode "up", sink := { room := some 14 } }

/-- The second line breaks off, and nothing is read. On the stair every step fails alike. -/
theorem failing_step_stays_cellar :
    (cellar.step.result = .error (.output .writeFailed) ∧ cellar.phase = .running
      ∧ cellar.inputsRead = []
      ∧ ∃ sink filter,
        cellar.step.walker = { cellar with channel := { cellar.channel with sink, filter } })
    ∧ (({ cellar with cursor := "stair" } : Walker Console).step.result
        = .error (.unknownNode "stair")
      ∧ ∀ n, (({ cellar with cursor := "stair" } : Walker Console).after n).step
        = ({ cellar with cursor := "stair" } : Walker Console).step) := by
  have hfault : cellar.step.result = .error (.output .writeFailed) := by rfl
  have hlost : ({ cellar with cursor := "stair" } : Walker Console).step.result
      = .error (.unknownNode "stair") := by rfl
  obtain ⟨hevery, -, hconsole⟩ := failing_step_stays
  obtain ⟨hrunning, -, hinputs, -⟩ := hevery cellar _ hfault
  obtain ⟨-, -, -, hstays⟩ := hevery _ _ hlost
  exact ⟨⟨hfault, hrunning, hinputs, hconsole cellar _ hfault⟩, hlost, (hstays (.unknown _)).2⟩

end Walker

end DialogueTree
