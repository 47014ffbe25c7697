import DialogueTree.Proofs.Walk.Decided

/-!
# The errors of a walk

A directive without a word would be an error of its own, but no walk meets it. Only lines
that begin with the mark get into a node, whether they stand alone, among the entries of a
dialogue or behind an option; and the mark is no blank, so such a line has a first word.
The two tokens that are there at every message have one as well.

What is left are the errors of looking up a node, and those of a channel that cannot show a
line. A script shows every line, so over a script only the former are left.
-/

namespace DialogueTree

/-- Every directive that a node holds has a word. -/
theorem Node.words_ne_nil_of_classify {id : String} {raw : Json} {node : Node}
    (h : classify id raw = .ok node) : ∀ line ∈ node.directives, Text.words line.toList ≠ [] := by
  intro line hline
  obtain ⟨fields, kind, hfields⟩ := exists_ofFields_of_classify h
  exact words_ne_nil_of_isDirective (isDirective_of_ofFields hfields line hline)

namespace Walker

variable {σ : Type} [Channel σ] {w : Walker σ}

/-- The result of a run is that of one of its steps. -/
theorem exists_step_of_run {n : Nat} {result : Except Error Phase}
    (h : (w.run n).result = some result) : ∃ k < n, (w.after k).step.result = result := by
  induction n generalizing w with
  | zero => cases h
  | succ n ih =>
    unfold run at h
    dsimp only at h
    split at h
    · -- the last step of the rest decides, or this step if there is no rest
      cases hrest : (w.step.walker.run n).result with
      | none =>
        rw [hrest] at h
        exact ⟨0, Nat.succ_pos n, Option.some.inj h⟩
      | some last =>
        rw [hrest] at h
        obtain ⟨k, hk, hstep⟩ := ih (hrest.trans h)
        rw [after_step] at hstep
        exact ⟨k + 1, Nat.succ_lt_succ hk, hstep⟩
    · exact ⟨0, Nat.succ_pos n, Option.some.inj h⟩

/-- **A step fails for the node or for the output**, and for nothing else. -/
theorem ofNode_or_output {e : Error} (h : w.step.result = .error e) :
    e.OfNode ∨ ∃ fault, e = .output fault := by
  rcases (step_error_cases h).2 with ⟨hnode, -⟩ | ⟨-, fault, houtput, -, -⟩
  · exact .inl (Document.ofNode_of_node hnode)
  · exact .inr ⟨fault, houtput⟩

theorem step_ne_emptyDirective (w : Walker σ) (line : String) :
    w.step.result ≠ .error (.emptyDirective line) := by
  intro h
  rcases ofNode_or_output h with hnode | ⟨fault, houtput⟩
  · cases hnode
  · cases houtput

/-- **No walk fails for a directive without a word.** Every directive of a node that is read
from a value has a word, and so have the tokens to quit and to stay. Therefore no step, no
run, and not the loop that steps until a step fails or ends the walk ever fails in this way,
over whatever channel. Over a script a step can fail only because the node is unknown or
malformed; at a console, whatever its writer does, only for this or because a line cannot be
put out. -/
theorem never_emptyDirective :
    (∀ (id : String) (raw : Json) (node : Node), Node.classify id raw = .ok node →
      ∀ line ∈ node.directives, Text.words line.toList ≠ [])
    ∧ (∀ token ∈ [Reserved.quit, Reserved.stay], Text.words token.toList ≠ [])
    ∧ (∀ {σ : Type} [Channel σ] (w : Walker σ) (line : String),
      (∀ n, (w.after n).step.result ≠ .error (.emptyDirective line))
        ∧ (∀ n, (w.run n).result ≠ some (.error (.emptyDirective line)))
        ∧ ∀ v, ¬ w.Walks (.error (.emptyDirective line)) v)
    ∧ (∀ (w : Walker Script) (n : Nat) (e : Error), (w.after n).step.result = .error e → e.OfNode)
    ∧ ∀ {ω : Type} [Writer ω] (w : Walker (Console ω)) (n : Nat) (e : Error),
      (w.after n).step.result = .error e → e.OfNode ∨ ∃ fault, e = .output fault := by
  refine ⟨fun id raw node => Node.words_ne_nil_of_classify, by decide, ?_, ?_, ?_⟩
  · intro σ _ w line
    refine ⟨fun n => step_ne_emptyDirective _ line, ?_, ?_⟩
    · intro n hrun
      obtain ⟨k, -, hstep⟩ := exists_step_of_run hrun
      exact step_ne_emptyDirective _ line hstep
    · intro v hwalks
      obtain ⟨n, -, hstep, -⟩ := walks_iff.mp hwalks
      exact step_ne_emptyDirective _ line hstep
  · intro w n e h
    exact Document.ofNode_of_node (script_error h).1
  · intro ω _ w n e h
    exact ofNode_or_output h

/-- What is written on a gate: between blanks that are not spaces, only the mark. -/
def gate : Json := .array [.string "dialogue", .array [
  .string "\u3000", .string "::\u3000\u00a0", .string "::GOTO well"]]

/-- A garden with this gate, and a well on which there is nothing but such a blank. -/
def garden : Walker Script where
  document := .ofList [("gate", gate), ("well", .array [.string "directive", .string "\u3000"])]
  cursor := "gate"
  channel := {}

/-- The gate has a directive with a word, which does nothing. The well is no node, which is
why a step fails there. -/
theorem never_emptyDirective_garden :
    (∃ node, Node.classify "gate" gate = .ok node
      ∧ node.directives = ["::\u3000\u00a0", "::GOTO well"]
      ∧ ∀ line ∈ node.directives, Text.words line.toList ≠ [])
    ∧ garden.step.result = .ok .running
    ∧ ∃ e, ({ garden with cursor := "well" } : Walker Script).step.result = .error e ∧ e.OfNode
      ∧ e ≠ .emptyDirective "\u3000" := by
  obtain ⟨hwords, -, hnever, hscript, -⟩ := never_emptyDirective
  have hgate : Node.classify "gate" gate = .ok (.dialogue [
      .text "\u3000", .directive "::\u3000\u00a0", .directive "::GOTO well"]) := by rfl
  have hwell : ({ garden with cursor := "well" } : Walker Script).step.result
      = .error (.malformedNode "well" (.notDirective "\u3000")) := by rfl
  refine ⟨⟨_, hgate, rfl, hwords _ _ _ hgate⟩, by rfl, _, hwell, hscript _ 0 _ hwell, ?_⟩
  intro hempty
  rw [hempty] at hwell
  exact (hnever _ "\u3000").1 0 hwell

end Walker

end DialogueTree
