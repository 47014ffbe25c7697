import DialogueTree.Walker

/-!
# Walks over channels that answer alike

A walker knows its channel only by what it reads from it and by whether a line could be
shown. Two walkers over channels that answer alike therefore go through the same steps,
whatever else the channels do: `step_like` is proved once, for any two kinds of channels
and any relation between them that every answer keeps.

The first use is a channel that remembers what it was asked. Over it a walk is the same
walk, and what a step reads can be looked up afterwards.
-/

namespace DialogueTree

section Simulation

variable {σ τ : Type} [Channel σ] [Channel τ]

/-- Related channels give the same answers and stay related. -/
structure Channel.Alike (R : σ → τ → Prop) : Prop where
  read : ∀ {c d}, R c d →
    (Channel.read c).1 = (Channel.read d).1 ∧ R (Channel.read c).2 (Channel.read d).2
  write : ∀ {c d} (line : String), R c d →
    (Channel.write c line).1 = (Channel.write d line).1
      ∧ R (Channel.write c line).2 (Channel.write d line).2

/-- Walkers that differ only in their channels, which are related. -/
structure Walker.Like {σ τ : Type} (R : σ → τ → Prop) (w : Walker σ) (v : Walker τ) : Prop where
  document : w.document = v.document
  cursor : w.cursor = v.cursor
  phase : w.phase = v.phase
  channel : R w.channel v.channel

/-- Steps with the same result and the same events, to walkers that differ only in their
channels. -/
structure Step.Like {σ τ : Type} (R : σ → τ → Prop) (s : Step σ) (r : Step τ) : Prop where
  result : s.result = r.result
  walker : s.walker.Like R r.walker
  events : s.events = r.events

variable {R : σ → τ → Prop}

theorem Channel.writeAll_alike {c : σ} {d : τ}
    (hwrite : ∀ {c d} (line : String), R c d →
      (Channel.write c line).1 = (Channel.write d line).1
        ∧ R (Channel.write c line).2 (Channel.write d line).2)
    (h : R c d) (lines : List String) :
    (Channel.writeAll c lines).1 = (Channel.writeAll d lines).1
      ∧ R (Channel.writeAll c lines).2 (Channel.writeAll d lines).2 := by
  induction lines generalizing c d with
  | nil => exact ⟨rfl, h⟩
  | cons line rest ih =>
    obtain ⟨hanswer, hnext⟩ := hwrite line h
    unfold Channel.writeAll
    generalize Channel.write c line = x at hanswer hnext ⊢
    generalize Channel.write d line = y at hanswer hnext ⊢
    obtain ⟨answer, c'⟩ := x
    obtain ⟨answer', d'⟩ := y
    cases hanswer
    cases answer with
    | ok _ => exact ih hnext
    | error fault => exact ⟨rfl, hnext⟩

theorem Channel.Alike.writeAll (hR : Channel.Alike R) {c : σ} {d : τ} (h : R c d)
    (lines : List String) :
    (Channel.writeAll c lines).1 = (Channel.writeAll d lines).1
      ∧ R (Channel.writeAll c lines).2 (Channel.writeAll d lines).2 :=
  Channel.writeAll_alike hR.write h lines

namespace Walker

variable {w : Walker σ} {v : Walker τ}

theorem obey_like {σ τ : Type} {R : σ → τ → Prop} {w : Walker σ} {v : Walker τ}
    (h : w.Like R v) (raw : String) (events : List Event) :
    (w.obey raw events).Like R (v.obey raw events) := by
  obtain ⟨hdocument, hcursor, hphase, hchannel⟩ := h
  unfold obey
  cases Directive.parse raw with
  | error e => exact ⟨rfl, ⟨hdocument, hcursor, hphase, hchannel⟩, rfl⟩
  | ok d =>
    dsimp only
    rw [hcursor]
    cases d.flow with
    | proceed => exact ⟨by rw [hphase], ⟨hdocument, rfl, hphase, hchannel⟩, rfl⟩
    | terminate => exact ⟨rfl, ⟨hdocument, rfl, rfl, hchannel⟩, rfl⟩

theorem afterShowing_like (hR : Channel.Alike R) (h : w.Like R v) (lines : List String)
    (events : List Event) {f : Walker σ → Step σ} {g : Walker τ → Step τ}
    (hnext : ∀ w' v', w'.Like R v' → (f w').Like R (g v')) :
    (w.afterShowing lines events f).Like R (v.afterShowing lines events g) := by
  obtain ⟨hdocument, hcursor, hphase, hchannel⟩ := h
  obtain ⟨hanswer, hshown⟩ := hR.writeAll hchannel lines
  unfold afterShowing
  generalize Channel.writeAll w.channel lines = x at hanswer hshown ⊢
  generalize Channel.writeAll v.channel lines = y at hanswer hshown ⊢
  obtain ⟨answer, c⟩ := x
  obtain ⟨answer', d⟩ := y
  cases hanswer
  cases answer with
  | ok _ => exact hnext _ _ ⟨hdocument, hcursor, hphase, hshown⟩
  | error fault => exact ⟨rfl, ⟨hdocument, hcursor, hphase, hshown⟩, rfl⟩

theorem ask_like (hR : Channel.Alike R) (h : w.Like R v) (options : Table String)
    (events : List Event) : (w.ask options events).Like R (v.ask options events) := by
  obtain ⟨hdocument, hcursor, hphase, hchannel⟩ := h
  obtain ⟨hinput, hread⟩ := hR.read hchannel
  have hbehind : Like R { w with channel := (Channel.read w.channel).2 }
      { v with channel := (Channel.read v.channel).2 } := ⟨hdocument, hcursor, hphase, hread⟩
  unfold ask
  dsimp only
  rw [hinput]
  exact obey_like hbehind _ _

theorem visit_like (hR : Channel.Alike R) (h : w.Like R v) (events : List Event) (node : Node) :
    (w.visit events node).Like R (v.visit events node) := by
  cases node with
  | directive raw => exact obey_like h raw events
  | dialogue entries =>
    unfold visit
    refine afterShowing_like hR h _ _ fun w' v' h' => ?_
    cases firstDirective? entries with
    | none => exact ⟨by rw [h'.phase], h', rfl⟩
    | some raw => exact obey_like h' raw events
  | message prompt options =>
    exact afterShowing_like hR h _ _ fun w' v' h' => ask_like hR h' options events

/-- **Walkers over channels that answer alike make like steps.** -/
theorem step_like (hR : Channel.Alike R) (h : w.Like R v) : w.step.Like R v.step := by
  unfold step
  rw [h.phase, h.document, h.cursor]
  cases v.phase with
  | terminated => exact ⟨rfl, h, rfl⟩
  | running =>
    dsimp only
    cases v.document.node v.cursor with
    | error e => exact ⟨rfl, h, rfl⟩
    | ok node => exact visit_like hR h _ node

end Walker

end Simulation

/-! ## A channel that remembers -/

/-- A channel, and the inputs that were read from it, in order. -/
structure Recorded (σ : Type) where
  channel : σ
  inputs : List String := []

namespace Recorded

variable {σ : Type} [Channel σ]

instance : Channel (Recorded σ) where
  read c := ((Channel.read c.channel).1,
    ⟨(Channel.read c.channel).2, c.inputs ++ [(Channel.read c.channel).1]⟩)
  write c line := ((Channel.write c.channel line).1,
    ⟨(Channel.write c.channel line).2, c.inputs⟩)
  lifetime c := Channel.lifetime c.channel

/-- Remembering changes no answer. -/
theorem alike : Channel.Alike fun (c : Recorded σ) (d : σ) => c.channel = d where
  read := by
    intro c d h
    subst h
    exact ⟨rfl, rfl⟩
  write := by
    intro c d line h
    subst h
    exact ⟨rfl, rfl⟩

theorem inputs_read (c : Recorded σ) :
    (Channel.read c).2.inputs = c.inputs ++ [(Channel.read c).1] := rfl

theorem inputs_writeAll (c : Recorded σ) (lines : List String) :
    (Channel.writeAll c lines).2.inputs = c.inputs := by
  induction lines generalizing c with
  | nil => rfl
  | cons line rest ih =>
    unfold Channel.writeAll
    have hkept : (Channel.write c line).2.inputs = c.inputs := rfl
    generalize Channel.write c line = x at hkept ⊢
    obtain ⟨answer, c'⟩ := x
    cases answer with
    | ok _ => exact (ih c').trans hkept
    | error fault => exact hkept

end Recorded

namespace Walker

variable {σ : Type}

/-- The same walker over a channel that remembers from now on. -/
def recorded (w : Walker σ) : Walker (Recorded σ) := ⟨w.document, w.cursor, ⟨w.channel, []⟩, w.phase⟩

/-- The inputs that the next step reads. -/
def inputsRead [Channel σ] (w : Walker σ) : List String := w.recorded.step.walker.channel.inputs

/-- **Recording does not change a step.** -/
theorem step_recorded [Channel σ] (w : Walker σ) :
    w.recorded.step.Like (fun c d => c.channel = d) w.step :=
  step_like Recorded.alike ⟨rfl, rfl, rfl, rfl⟩

end Walker

end DialogueTree
