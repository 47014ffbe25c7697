import DialogueTree.Proofs.Walk.Failure

/-!
# Walks side by side

Two walks can go side by side although they are not over the same channel, through the same
document, or with the same inputs. What keeps them together is only that in each step they
find the same node, can show the same of its lines, and choose the same directive
(`step_abreast`). If they also read the same, they tell the same.

A step reads at most one input, and none unless it goes through. That is why it is enough to
compare what is read where something is read.
-/

namespace DialogueTree

section

variable {σ τ : Type}

/-- Walkers at the same place, over related channels. Their documents may differ. -/
structure Walker.Abreast (R : σ → τ → Prop) (w : Walker σ) (v : Walker τ) : Prop where
  cursor : w.cursor = v.cursor
  phase : w.phase = v.phase
  channel : R w.channel v.channel

/-- Steps with the same result, to walkers at the same place. -/
structure Step.Abreast (R : σ → τ → Prop) (s : Step σ) (r : Step τ) : Prop where
  result : s.result = r.result
  walker : s.walker.Abreast R r.walker

/-- The input that a node asks for, if it asks for one. -/
def Node.asked [Channel σ] (c : σ) : Node → List String
  | .message .. => [(Channel.read c).1]
  | _ => []

theorem Node.asked_of_reads [Channel σ] {c : σ} {node : Node} (h : node.reads = 0) :
    node.asked c = [] := by
  cases node with
  | message prompt options => cases h
  | _ => rfl

namespace Walker

/-! ## What a step reads -/

section Reads

variable [Channel σ] {w : Walker σ}

theorem inputsRead_of_next?_none (h : w.next? = none) : w.inputsRead = [] := by
  have hrecorded : w.recorded.next? = none := h
  unfold inputsRead
  rw [step_of_next?_none hrecorded]
  rfl

/-- A step that can show the lines of its node reads what the node asks for. -/
theorem inputsRead_of_shown {node : Node} (h : w.next? = some node)
    (hshown : (Channel.writeAll w.channel node.visibleLines).1 = .ok ()) :
    w.inputsRead = node.asked (Channel.writeAll w.channel node.visibleLines).2 := by
  have hrecorded : w.recorded.next? = some node := h
  obtain ⟨hanswer, hchannel⟩ :=
    Recorded.alike.writeAll (c := w.recorded.channel) (d := w.channel) rfl node.visibleLines
  have hinputs := Recorded.inputs_writeAll w.recorded.channel node.visibleLines
  unfold inputsRead
  rw [step_channel hrecorded (hanswer.trans hshown), ← hchannel]
  cases node with
  | directive raw => exact hinputs
  | dialogue entries => exact hinputs
  | message prompt options =>
    refine (Recorded.inputs_read _).trans ?_
    rw [hinputs]
    rfl

end Reads

/-! ## Steps side by side -/

variable {R S : σ → τ → Prop} {w : Walker σ} {v : Walker τ}

theorem Abreast.mono (h : w.Abreast R v) (hRS : ∀ {c d}, R c d → S c d) : w.Abreast S v :=
  ⟨h.cursor, h.phase, hRS h.channel⟩

theorem obey_abreast (h : w.Abreast R v) (raw : String) (events events' : List Event) :
    (w.obey raw events).Abreast R (v.obey raw events')
      ∧ (events = events' → (w.obey raw events).events = (v.obey raw events').events) := by
  obtain ⟨hcursor, hphase, hchannel⟩ := h
  unfold obey
  cases Directive.parse raw with
  | error e => exact ⟨⟨rfl, hcursor, hphase, hchannel⟩, id⟩
  | ok d =>
    dsimp only
    rw [hcursor]
    cases d.flow with
    | proceed => exact ⟨⟨by rw [hphase], rfl, hphase, hchannel⟩, fun h => by rw [h]⟩
    | terminate => exact ⟨⟨rfl, rfl, rfl, hchannel⟩, fun h => by rw [h]⟩

variable [Channel σ] [Channel τ]

/-- What comes after the lines goes the same way if the same directive is chosen. -/
theorem conclude_abreast (h : w.Abreast R v) {events events' : List Event}
    (hbefore : events = events') (node : Node)
    (hquiet : node.reads = 0 → S w.channel v.channel)
    (hasked : ∀ prompt options, node = .message prompt options →
      chosen options (Channel.read w.channel).1 = chosen options (Channel.read v.channel).1
        ∧ S (Channel.read w.channel).2 (Channel.read v.channel).2) :
    (w.conclude events node).Abreast S (v.conclude events' node)
      ∧ (node.asked w.channel = node.asked v.channel →
        (w.conclude events node).events = (v.conclude events' node).events) := by
  subst hbefore
  cases node with
  | directive raw =>
    obtain ⟨hstep, hevents⟩ :=
      obey_abreast (R := S) ⟨h.cursor, h.phase, hquiet rfl⟩ raw events events
    exact ⟨hstep, fun _ => hevents rfl⟩
  | dialogue entries =>
    have hbehind : w.Abreast S v := ⟨h.cursor, h.phase, hquiet rfl⟩
    unfold conclude
    dsimp only
    cases firstDirective? entries with
    | none => exact ⟨⟨by rw [h.phase], hbehind⟩, fun _ => rfl⟩
    | some raw =>
      obtain ⟨hstep, hevents⟩ := obey_abreast hbehind raw events events
      exact ⟨hstep, fun _ => hevents rfl⟩
  | message prompt options =>
    obtain ⟨hchosen, hchannel⟩ := hasked prompt options rfl
    have hbehind : Abreast S { w with channel := (Channel.read w.channel).2 }
        { v with channel := (Channel.read v.channel).2 } := ⟨h.cursor, h.phase, hchannel⟩
    unfold conclude ask
    dsimp only
    rw [hchosen]
    obtain ⟨hstep, hevents⟩ := obey_abreast hbehind
      (chosen options (Channel.read v.channel).1) _ _
    refine ⟨hstep, fun hsame => hevents ?_⟩
    rw [List.head_eq_of_cons_eq hsame]

/-- **Walkers that are abreast make steps that are abreast**, if they find the same node, if
related channels can show the same lines, and if the same directive is chosen where an input
is read. If the inputs are the same as well, so are the events. -/
theorem step_abreast (h : w.Abreast R v)
    (hnode : w.phase = .running → w.document.node w.cursor = v.document.node w.cursor)
    (hwrite : ∀ {c d} (line : String), R c d →
      (Channel.write c line).1 = (Channel.write d line).1
        ∧ R (Channel.write c line).2 (Channel.write d line).2)
    (hquiet : w.inputsRead = [] → ∀ {c d}, R c d → S c d)
    (hasked : ∀ {prompt options c d}, w.next? = some (.message prompt options) →
      w.inputsRead = [(Channel.read c).1] → v.inputsRead = [(Channel.read d).1] → R c d →
        chosen options (Channel.read c).1 = chosen options (Channel.read d).1
          ∧ S (Channel.read c).2 (Channel.read d).2) :
    w.step.Abreast S v.step
      ∧ ((∀ {c d}, w.inputsRead = [(Channel.read c).1] → v.inputsRead = [(Channel.read d).1] →
          R c d → (Channel.read c).1 = (Channel.read d).1) →
        w.step.events = v.step.events) := by
  have hquietly (hnone : w.next? = none) : S w.channel v.channel :=
    hquiet (inputsRead_of_next?_none hnone) h.channel
  cases hphase : w.phase with
  | terminated =>
    have hphase' : v.phase = .terminated := h.phase ▸ hphase
    have hnext : w.next? = none := by rw [next?, hphase]
    rw [step_terminated hphase, step_terminated hphase']
    exact ⟨⟨rfl, h.cursor, h.phase, hquietly hnext⟩, fun _ => rfl⟩
  | running =>
    have hphase' : v.phase = .running := h.phase ▸ hphase
    have hsame : w.document.node w.cursor = v.document.node v.cursor := by
      rw [hnode hphase, h.cursor]
    cases hfound : w.document.node w.cursor with
    | error e =>
      rw [step_running hphase, step_running hphase', ← hsame, hfound]
      exact ⟨⟨rfl, h.cursor, h.phase, hquietly (next?_eq_none hfound)⟩, fun _ => rfl⟩
    | ok node =>
      have hnext : w.next? = some node := next?_eq_some_iff.mpr ⟨hphase, hfound⟩
      have hnext' : v.next? = some node := next?_eq_some_iff.mpr ⟨hphase', hsame ▸ hfound⟩
      obtain ⟨hanswer, hlines⟩ := Channel.writeAll_alike hwrite h.channel node.visibleLines
      cases hshown : (Channel.writeAll w.channel node.visibleLines).1 with
      | error fault =>
        have hstep := step_of_fault hnext hshown
        have hnone : w.inputsRead = [] := inputsRead_of_error (by rw [hstep])
        rw [hstep, step_of_fault hnext' (hanswer ▸ hshown)]
        exact ⟨⟨rfl, h.cursor, h.phase, hquiet hnone hlines⟩, fun _ => by rw [h.cursor]⟩
      | ok _ =>
        -- the lines are shown, and what is read now is what the steps read
        have hread := inputsRead_of_shown hnext hshown
        have hread' := inputsRead_of_shown hnext' (hanswer ▸ hshown)
        have hbehind : Abreast R
            { w with channel := (Channel.writeAll w.channel node.visibleLines).2 }
            { v with channel := (Channel.writeAll v.channel node.visibleLines).2 } :=
          ⟨h.cursor, h.phase, hlines⟩
        have hquietly' (hzero : node.reads = 0) : S _ _ :=
          hquiet (hread.trans (Node.asked_of_reads hzero)) hlines
        obtain ⟨hstep, hevents⟩ := conclude_abreast hbehind
          (congrArg (fun cursor => [Event.visiting cursor]) h.cursor) node hquietly' (by
            rintro prompt options rfl
            exact hasked hnext hread hread' hlines)
        rw [step_of_shown hnext hshown, step_of_shown hnext' (hanswer ▸ hshown)]
        refine ⟨hstep, fun hinput => hevents ?_⟩
        cases node with
        | directive raw => rfl
        | dialogue entries => rfl
        | message prompt options =>
          exact congrArg (fun input => [input]) (hinput hread hread' hlines)

end Walker

end

end DialogueTree
