import DialogueTree.Proofs.Directive.Grammar
import DialogueTree.Proofs.Walk.Abreast

/-!
# The log of a walk

What a walk tells on its way is enough to follow it. The moves that are told lead from where the
walk began to where it is, and every other event that names a node names the one under the
cursor at that moment. So a log can be read with a finger on the cursor (`Traces`), and the finger
ends where the walk is.

That this holds of a run of any length comes from what a single step can tell (`Account`): nothing
if it visits nothing; else first the visit, then the input if one was read, then what the directive
says, and last the end if the walk ends by it. A step that fails behind the lookup has told of the
visit and of nothing more, because reading and running come after the last thing that can fail.
-/

namespace DialogueTree

/-! ## Reading a log -/

namespace Event

/-- From where to where the cursor moved, if the event is about that. -/
def move? : Event → Option (String × String)
  | .moved source target => some (source, target)
  | _ => none

/-- The node that was visited, if the event is about that. -/
def visited? : Event → Option String
  | .visiting node => some node
  | _ => none

/-- The input that was read and the directive for which it stands, if the event is about that. -/
def selection? : Event → Option (String × String)
  | .selected input raw => some (input, raw)
  | _ => none

/-- The node at which the walk ended, if the event is about that. -/
def ended? : Event → Option String
  | .terminated node => some node
  | _ => none

end Event

/-- Moves of which each begins where the one before it ended. -/
inductive Trail : String → List (String × String) → String → Prop where
  | nil (place : String) : Trail place [] place
  | cons {source target last : String} {moves : List (String × String)} :
      Trail target moves last → Trail source ((source, target) :: moves) last

/-- An event that is read with a finger on the cursor, and where the finger is behind it. An event
that names the node of its moment names the one under the finger. A move takes the finger along. -/
inductive Event.Carries : Event → String → String → Prop where
  | visiting (here : String) : Carries (.visiting here) here here
  | selected (input raw here : String) : Carries (.selected input raw) here here
  | moved (here target : String) : Carries (.moved here target) here target
  | ignored (raw here : String) : Carries (.ignored raw here) here here
  | terminated (here : String) : Carries (.terminated here) here here

/-- A log that can be read with a finger on the cursor. -/
inductive Traces : String → List Event → String → Prop where
  | nil (here : String) : Traces here [] here
  | cons {event : Event} {here middle last : String} {rest : List Event} :
      event.Carries here middle → Traces middle rest last → Traces here (event :: rest) last

namespace Traces

variable {here middle last : String} {events more : List Event}

theorem append (h : Traces here events middle) (h' : Traces middle more last) :
    Traces here (events ++ more) last := by
  induction h with
  | nil => exact h'
  | cons hevent _ ih => exact .cons hevent (ih h')

/-- The finger is somewhere at every moment. -/
theorem exists_between (h : Traces here (events ++ more) last) :
    ∃ middle, Traces here events middle ∧ Traces middle more last := by
  induction events generalizing here with
  | nil => exact ⟨here, .nil here, h⟩
  | cons event events ih =>
    cases h with
    | cons hevent hrest =>
      obtain ⟨middle, hevents, hmore⟩ := ih hrest
      exact ⟨middle, .cons hevent hevents, hmore⟩

/-- The moves alone lead the same way. -/
theorem trail (h : Traces here events last) : Trail here (events.filterMap Event.move?) last := by
  induction h with
  | nil here => exact .nil here
  | cons hevent _ ih =>
    cases hevent with
    | moved here target => exact .cons ih
    | visiting | selected | ignored | terminated => exact ih

end Traces

/-! ## What one step tells -/

/-- What is told about the end of the walk when a directive is run. -/
def Directive.ending (d : Directive) (cursor : String) : List Event :=
  match d.flow with
  | .proceed => []
  | .terminate => [.terminated cursor]

namespace Walker

variable {σ : Type}

theorem obey_of_parse (w : Walker σ) {raw : String} {d : Directive} (events : List Event)
    (h : Directive.parse raw = .ok d) :
    (w.obey raw events).result = .ok (w.obey raw events).walker.phase
      ∧ (w.obey raw events).walker.cursor = d.target w.cursor
      ∧ (w.obey raw events).walker.phase = (if d = .quit then .terminated else w.phase)
      ∧ (w.obey raw events).events = events ++ d.events w.cursor ++ d.ending w.cursor := by
  unfold obey
  rw [h]
  -- only a directive to quit tells more than what it says itself
  cases d with
  | quit => exact ⟨rfl, rfl, rfl, rfl⟩
  | stay | goto target | ignored line => exact ⟨rfl, rfl, rfl, (List.append_nil _).symm⟩

variable [Channel σ] {w : Walker σ} {node : Node} {raw : String} {d : Directive}

/-- The next step goes through and runs a directive: the one that the node under the cursor
selects by what is read. -/
def Obeys (w : Walker σ) (raw : String) : Prop :=
  ∃ node phase, w.next? = some node ∧ w.step.result = .ok phase
    ∧ Selects node w.inputsRead (some raw)

theorem Obeys.unique {other : String} (h : w.Obeys raw) (h' : w.Obeys other) : raw = other := by
  obtain ⟨node, phase, hnext, -, hselects⟩ := h
  obtain ⟨node', phase', hnext', -, hselects'⟩ := h'
  cases hnext.symm.trans hnext'
  exact Option.some.inj (hselects.unique hselects')

theorem not_obeys_of_next?_none (h : w.next? = none) (raw : String) : ¬ w.Obeys raw := by
  rintro ⟨node, phase, hnext, -⟩
  rw [h] at hnext
  cases hnext

theorem not_obeys_of_error {e : Error} (h : w.step.result = .error e) (raw : String) :
    ¬ w.Obeys raw := by
  rintro ⟨node, phase, -, hok, -⟩
  rw [h] at hok
  cases hok

theorem not_obeys_of_selects (hnext : w.next? = some node)
    (h : Selects node w.inputsRead none) (raw : String) : ¬ w.Obeys raw := by
  rintro ⟨node', phase, hnext', -, hselects⟩
  cases hnext.symm.trans hnext'
  cases h.unique hselects

/-- A directive and what it meant for the step that ran it. -/
structure Obeyed (w : Walker σ) (raw : String) (d : Directive) : Prop where
  obeys : w.Obeys raw
  parses : Directive.parse raw = .ok d
  cursor : w.step.walker.cursor = d.target w.cursor
  phase : w.step.walker.phase = if d = .quit then .terminated else w.phase

/-- A step that comes down to a directive runs it, and tells last what the directive says. -/
theorem obeyed_of_step {c : σ} {events : List Event} (hnext : w.next? = some node)
    (hselects : Selects node w.inputsRead (some raw)) (hdirective : isDirective raw = true)
    (hstep : w.step = obey { w with channel := c } raw events) :
    ∃ d, w.Obeyed raw d
      ∧ w.step.events = events ++ (d.events w.cursor ++ d.ending w.cursor) := by
  obtain ⟨d, hparse⟩ := exists_parse_of_isDirective hdirective
  obtain ⟨hresult, hcursor, hphase, hevents⟩ :=
    obey_of_parse { w with channel := c } events hparse
  rw [← hstep] at hresult hcursor hphase hevents
  rw [List.append_assoc] at hevents
  exact ⟨d, ⟨⟨node, _, hnext, hresult, hselects⟩, hparse, hcursor, hphase⟩, hevents⟩

/-- **All that a step can tell.** It visits nothing; or it visits a node and runs no directive; or
it visits a node and runs a directive, for an input if the node asks for one. -/
inductive Account (w : Walker σ) : List Event → Prop where
  | silent : w.next? = none → (∀ raw, ¬ w.Obeys raw) → w.inputsRead = [] →
      w.step.walker = w → Account w []
  | visit {node : Node} : w.next? = some node → (∀ raw, ¬ w.Obeys raw) → w.inputsRead = [] →
      w.step.walker.cursor = w.cursor → w.step.walker.phase = w.phase →
      Account w [.visiting w.cursor]
  | unasked {node : Node} {raw : String} {d : Directive} : w.next? = some node →
      w.Obeyed raw d → w.inputsRead = [] →
      Account w (.visiting w.cursor :: (d.events w.cursor ++ d.ending w.cursor))
  | asked {node : Node} {raw input : String} {d : Directive} : w.next? = some node →
      w.Obeyed raw d → w.inputsRead = [input] →
      Account w (.visiting w.cursor :: .selected input raw
        :: (d.events w.cursor ++ d.ending w.cursor))

theorem events_of_next?_none (h : w.next? = none) : w.step.events = [] := by
  cases hphase : w.phase with
  | terminated => rw [step_terminated hphase]
  | running =>
    rw [step_running hphase]
    cases hnode : w.document.node w.cursor with
    | error e => rfl
    | ok node =>
      rw [next?_eq_some_iff.mpr ⟨hphase, hnode⟩] at h
      cases h

/-- A step that can show the lines of its node tells what is run, if anything is. -/
theorem account_of_shown (hnext : w.next? = some node)
    (hshown : (Channel.writeAll w.channel node.visibleLines).1 = .ok ()) :
    w.Account w.step.events := by
  have hstep := step_of_shown hnext hshown
  have hread := inputsRead_of_shown hnext hshown
  have hdirectives := w.document.isDirective_of_node (next?_eq_some_iff.mp hnext).2
  generalize (Channel.writeAll w.channel node.visibleLines).2 = c at hstep hread
  cases node with
  | directive raw =>
    have hselects : Selects (.directive raw) w.inputsRead (some raw) := by
      rw [hread]
      exact .directive raw
    obtain ⟨d, hobeyed, hevents⟩ := obeyed_of_step (c := c) hnext hselects
      (hdirectives raw (List.mem_singleton.mpr rfl)) hstep
    rw [hevents]
    exact .unasked hnext hobeyed hread
  | dialogue entries =>
    have hselects : Selects (.dialogue entries) w.inputsRead (firstDirective? entries) := by
      rw [hread]
      exact selects_dialogue entries
    unfold conclude at hstep
    dsimp only at hstep
    cases hfirst : firstDirective? entries with
    | none =>
      rw [hfirst] at hstep hselects
      rw [hstep]
      exact .visit hnext (not_obeys_of_selects hnext hselects) hread (by rw [hstep])
        (by rw [hstep])
    | some raw =>
      rw [hfirst] at hstep hselects
      obtain ⟨d, hobeyed, hevents⟩ := obeyed_of_step (c := c) hnext hselects
        (hdirectives raw (firstDirective?_mem hfirst)) hstep
      rw [hevents]
      exact .unasked hnext hobeyed hread
  | message prompt options =>
    have hselects : Selects (.message prompt options) w.inputsRead
        (some (chosen options (Channel.read c).1)) := by
      rw [hread]
      exact selects_message prompt options _
    obtain ⟨d, hobeyed, hevents⟩ := obeyed_of_step (c := (Channel.read c).2) hnext hselects
      (isDirective_chosen hdirectives _) hstep
    rw [hevents]
    exact .asked hnext hobeyed hread

/-- **Every step gives an account of itself.** -/
theorem step_account (w : Walker σ) : w.Account w.step.events := by
  cases hnext : w.next? with
  | none =>
    rw [events_of_next?_none hnext]
    exact .silent hnext (not_obeys_of_next?_none hnext) (inputsRead_of_next?_none hnext)
      (step_of_next?_none hnext)
  | some node =>
    cases hshown : (Channel.writeAll w.channel node.visibleLines).1 with
    | error fault =>
      have hstep := step_of_fault hnext hshown
      have hresult : w.step.result = .error (.output fault) := by rw [hstep]
      rw [show w.step.events = [.visiting w.cursor] by rw [hstep]]
      exact .visit hnext (not_obeys_of_error hresult) (inputsRead_of_error hresult)
        (by rw [hstep]) (by rw [hstep])
    | ok _ => exact account_of_shown hnext hshown

/-! ## What a step tells, by kinds of events -/

/-- What the next step tells is what it does. -/
structure Reports (w : Walker σ) : Prop where
  /-- It tells of a visit once if there is a node to visit, by the name under the cursor. -/
  visits : w.step.events.filterMap Event.visited? = (w.next?.map fun _ => w.cursor).toList
  /-- It tells of an input if it reads one, with the directive that it runs. -/
  selects : (w.inputsRead = [] ∧ w.step.events.filterMap Event.selection? = [])
    ∨ ∃ input raw, w.inputsRead = [input] ∧ w.Obeys raw
      ∧ w.step.events.filterMap Event.selection? = [(input, raw)]
  /-- It warns once if the directive that it runs has none of the known forms, by the text of the
  directive and by the name under the cursor, which stays there. -/
  warns : ((∀ raw line, w.Obeys raw → Directive.parse raw ≠ .ok (.ignored line))
      ∧ w.step.events.filter (·.level = .warn) = [])
    ∨ ∃ raw, w.Obeys raw ∧ Directive.parse raw = .ok (.ignored raw)
      ∧ w.step.events.filter (·.level = .warn) = [.ignored raw w.cursor]
      ∧ w.step.walker.cursor = w.cursor

/-- What a directive says and what is told about the end are neither visits nor selections. -/
theorem filterMap_ending (d : Directive) (cursor : String) :
    (d.events cursor ++ d.ending cursor).filterMap Event.visited? = []
      ∧ (d.events cursor ++ d.ending cursor).filterMap Event.selection? = [] := by
  cases d <;> exact ⟨rfl, rfl⟩

/-- There is a warning exactly if the directive that is run is ignored. -/
theorem Obeyed.warns {events : List Event} (h : w.Obeyed raw d)
    (hevents : events.filter (·.level = .warn)
      = (d.events w.cursor ++ d.ending w.cursor).filter (·.level = .warn)) :
    ((∀ raw line, w.Obeys raw → Directive.parse raw ≠ .ok (.ignored line))
        ∧ events.filter (·.level = .warn) = [])
      ∨ ∃ raw, w.Obeys raw ∧ Directive.parse raw = .ok (.ignored raw)
        ∧ events.filter (·.level = .warn) = [.ignored raw w.cursor]
        ∧ w.step.walker.cursor = w.cursor := by
  rw [hevents]
  have hother (hd : ∀ line, d ≠ .ignored line) :
      ∀ raw line, w.Obeys raw → Directive.parse raw ≠ .ok (.ignored line) := by
    intro raw' line hobeys hparse
    cases hobeys.unique h.obeys
    exact hd line (Except.ok.inj (h.parses.symm.trans hparse))
  cases d with
  | ignored line =>
    cases Directive.eq_of_parse_ignored h.parses
    exact .inr ⟨_, h.obeys, h.parses, rfl, h.cursor⟩
  | quit | stay | goto target => exact .inl ⟨hother nofun, rfl⟩

theorem Account.reports {events : List Event} (h : w.Account events)
    (hevents : w.step.events = events) : w.Reports := by
  cases h with
  | silent hnext hobeys hread _ =>
    exact ⟨by rw [hevents, hnext]; rfl, .inl ⟨hread, by rw [hevents]; rfl⟩,
      .inl ⟨fun raw _ hraw => absurd hraw (hobeys raw), by rw [hevents]; rfl⟩⟩
  | visit hnext hobeys hread _ _ =>
    exact ⟨by rw [hevents, hnext]; rfl, .inl ⟨hread, by rw [hevents]; rfl⟩,
      .inl ⟨fun raw _ hraw => absurd hraw (hobeys raw), by rw [hevents]; rfl⟩⟩
  | @unasked node raw d hnext hobeyed hread =>
    obtain ⟨hvisits, hselects⟩ := filterMap_ending d w.cursor
    refine ⟨?_, .inl ⟨hread, ?_⟩, hobeyed.warns (by rw [hevents]; rfl)⟩
    · rw [hevents, hnext]
      exact congrArg (w.cursor :: ·) hvisits
    · rw [hevents]
      exact hselects
  | @asked node raw input d hnext hobeyed hread =>
    obtain ⟨hvisits, hselects⟩ := filterMap_ending d w.cursor
    refine ⟨?_, .inr ⟨input, raw, hread, hobeyed.obeys, ?_⟩, hobeyed.warns (by rw [hevents]; rfl)⟩
    · rw [hevents, hnext]
      exact congrArg (w.cursor :: ·) hvisits
    · rw [hevents]
      exact congrArg ((input, raw) :: ·) hselects

/-! ## What a run tells -/

/-- All that is told in so many steps. -/
def told (w : Walker σ) (n : Nat) : List Event :=
  (List.range n).flatMap fun k => (w.after k).step.events

theorem told_succ (w : Walker σ) (n : Nat) :
    w.told (n + 1) = w.told n ++ (w.after n).step.events := by
  unfold told
  rw [List.range_succ, List.flatMap_append, List.flatMap_singleton]

/-- A log with the end of the walk as its last event, and at the node that was visited last. -/
def Closes (log : List Event) : Prop :=
  ∃ before node, log = before ++ [.terminated node]
    ∧ before.filterMap Event.ended? = []
    ∧ (before.filterMap Event.visited?).getLast? = some node

/-- A log of so many steps from which the walk can be followed. -/
structure Chronicles (w : Walker σ) (n : Nat) : Prop where
  /-- The moves lead from where the walk began to where it is. -/
  moves : Trail w.cursor ((w.told n).filterMap Event.move?) (w.after n).cursor
  /-- A visit names the node to which the moves before it lead. -/
  visits : ∀ before node behind, w.told n = before ++ .visiting node :: behind →
    Trail w.cursor (before.filterMap Event.move?) node
  /-- The end is told once the walk has ended, and not before. It is the last event, and names the
  node that was visited last. -/
  ends : ((w.after n).phase = .running ∧ (w.told n).filterMap Event.ended? = [])
    ∨ (w.after n).phase = .terminated ∧ Closes (w.told n)

/-- A directive can be read with a finger on the cursor. -/
theorem Obeyed.traces (h : w.Obeyed raw d) :
    Traces w.cursor (d.events w.cursor ++ d.ending w.cursor) w.step.walker.cursor := by
  rw [h.cursor]
  cases d with
  | quit => exact .cons (.terminated _) (.nil _)
  | stay => exact .nil _
  | goto target => exact .cons (.moved _ target) (.nil _)
  | ignored line => exact .cons (.ignored line _) (.nil _)

/-- **The finger follows a step.** -/
theorem step_traces (w : Walker σ) : Traces w.cursor w.step.events w.step.walker.cursor := by
  have haccount := w.step_account
  generalize w.step.events = events at haccount
  cases haccount with
  | silent _ _ _ hkept =>
    rw [hkept]
    exact .nil _
  | visit _ _ _ hcursor _ =>
    rw [hcursor]
    exact .cons (.visiting _) (.nil _)
  | unasked _ hobeyed _ => exact .cons (.visiting _) hobeyed.traces
  | asked _ hobeyed _ => exact .cons (.visiting _) (.cons (.selected _ _ _) hobeyed.traces)

theorem told_traces (w : Walker σ) (n : Nat) : Traces w.cursor (w.told n) (w.after n).cursor := by
  induction n with
  | zero => exact .nil w.cursor
  | succ n ih =>
    rw [told_succ]
    exact ih.append (w.after n).step_traces

/-- **A step of a running walk tells of the end exactly if it ends the walk.** -/
theorem step_ends (hrunning : w.phase = .running) :
    (w.step.walker.phase = .running ∧ w.step.events.filterMap Event.ended? = [])
      ∨ w.step.walker.phase = .terminated ∧ Closes w.step.events := by
  have haccount := w.step_account
  generalize w.step.events = events at haccount
  cases haccount with
  | silent _ _ _ hkept => exact .inl ⟨by rw [hkept, hrunning], rfl⟩
  | visit _ _ _ _ hphase => exact .inl ⟨by rw [hphase, hrunning], rfl⟩
  | @unasked node raw d _ hobeyed _ =>
    have hphase := hobeyed.phase
    cases d with
    | quit => exact .inr ⟨hphase, [.visiting w.cursor], w.cursor, rfl, rfl, rfl⟩
    | stay | goto target | ignored line => exact .inl ⟨hphase.trans hrunning, rfl⟩
  | @asked node raw input d _ hobeyed _ =>
    have hphase := hobeyed.phase
    cases d with
    | quit =>
      exact .inr ⟨hphase, [.visiting w.cursor, .selected input raw], w.cursor, rfl, rfl, rfl⟩
    | stay | goto target | ignored line => exact .inl ⟨hphase.trans hrunning, rfl⟩

theorem Closes.after {log events : List Event} (h : Closes events)
    (hlog : log.filterMap Event.ended? = []) : Closes (log ++ events) := by
  obtain ⟨before, node, rfl, hended, hlast⟩ := h
  refine ⟨log ++ before, node, (List.append_assoc _ _ _).symm, ?_, ?_⟩
  · rw [List.filterMap_append, hlog, hended]
    rfl
  · rw [List.filterMap_append, List.getLast?_append, hlast]
    rfl

theorem told_ends (hrunning : w.phase = .running) (n : Nat) :
    ((w.after n).phase = .running ∧ (w.told n).filterMap Event.ended? = [])
      ∨ (w.after n).phase = .terminated ∧ Closes (w.told n) := by
  induction n with
  | zero => exact .inl ⟨hrunning, rfl⟩
  | succ n ih =>
    rw [told_succ]
    rcases ih with ⟨hphase, hnone⟩ | ⟨hphase, hcloses⟩
    · rcases step_ends hphase with ⟨hnext, hnone'⟩ | ⟨hnext, hcloses⟩
      · exact .inl ⟨hnext, by rw [List.filterMap_append, hnone, hnone']; rfl⟩
      · exact .inr ⟨hnext, hcloses.after hnone⟩
    · -- a walk that has ended tells nothing more
      have hstep := step_terminated hphase
      right
      refine ⟨?_, ?_⟩
      · show (w.after n).step.walker.phase = .terminated
        rw [hstep, hphase]
      · rw [hstep, List.append_nil]
        exact hcloses

theorem told_step (w : Walker σ) (n : Nat) :
    w.step.events ++ w.step.walker.told n = w.told (n + 1) := by
  unfold told
  rw [List.range_succ_eq_map, List.flatMap_cons, List.flatMap_map]
  simp only [after_step]
  rfl

/-- A run tells what its steps tell. -/
theorem run_events (n : Nat) (w : Walker σ) : (w.run n).events = w.told (w.run n).steps := by
  induction n generalizing w with
  | zero => rfl
  | succ n ih =>
    have hone : w.step.events = w.told 1 := by rw [← told_step]; exact (List.append_nil _).symm
    unfold run
    dsimp only
    split
    · rw [← told_step, ih]
    · exact hone

/-- **The log is a faithful trace of the walk.** Take any walk that begins somewhere, and any
number of steps; steps after one that fails and after the end count as well. The moves that are
told lead from the start to the cursor, each from where the one before led, and each visit names
the node to which the moves before it led. The end of the walk is told exactly if it has come, as
the last event and with the node of the last visit. In every step there is one visit if there was
a node to visit, one selection if there was a read, and one warning if the directive that was run
has none of the known forms, and none of them otherwise. A run that stops at a failure or at the
end tells what its steps tell. -/
theorem log_faithful (doc : Document) (start : String) (c : σ) (n : Nat) :
    let w : Walker σ := { document := doc, cursor := start, channel := c }
    w.Chronicles n ∧ (∀ k, (w.after k).Reports)
      ∧ (w.run n).events = w.told (w.run n).steps := by
  intro w
  have htraces : Traces w.cursor (w.told n) (w.after n).cursor := told_traces w n
  refine ⟨⟨htraces.trail, ?_, told_ends rfl n⟩, ?_, run_events n w⟩
  · intro before node behind hsplit
    rw [hsplit] at htraces
    obtain ⟨middle, hbefore, hbehind⟩ := htraces.exists_between
    cases hbehind with
    | cons hvisit _ =>
      cases hvisit
      exact hbefore.trail
  · intro k
    exact (w.after k).step_account.reports rfl

/-- From the porch into the hall and back, and the end at the porch. A fourth step tells nothing. -/
example : porch.told 4 = [
    .visiting "porch", .selected "in" "::GOTO hall", .moved "porch" "hall",
    .visiting "hall", .moved "hall" "porch",
    .visiting "porch", .selected Reserved.quit Reserved.quit, .terminated "porch"] := by
  rfl

end Walker

end DialogueTree
