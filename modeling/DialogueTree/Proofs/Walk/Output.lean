import DialogueTree.Proofs.Walk.Failure
import Mathlib.Data.List.Destutter

/-!
# What a walk has written

A script records the lines that it is shown, but not one that repeats the line before it.
Over a whole walk this comes to one rule: take the lines of all visited nodes one after
the other, and collapse every run of equal neighbours. It does not matter where one visit
ends and the next begins, or what was read in between.

The invariant behind it (`Script.Shows`) is that the filter remembers the last line that
was shown, whether or not that line was recorded.
-/

namespace DialogueTree

/-! ## Collapsing grows at the end -/

theorem destutter'_concat (first : String) (lines : List String) (line : String) :
    (lines ++ [line]).destutter' (· ≠ ·) first
      = if (first :: lines).getLast? = some line then lines.destutter' (· ≠ ·) first
        else lines.destutter' (· ≠ ·) first ++ [line] := by
  induction lines generalizing first with
  | nil =>
    rw [List.nil_append, List.destutter'_singleton, List.getLast?_singleton]
    by_cases h : first = line <;> simp [h]
  | cons next rest ih =>
    rw [List.cons_append, List.destutter'_cons, List.destutter'_cons, List.getLast?_cons_cons]
    by_cases h : first = next
    · subst h
      simp only [ne_eq, not_true_eq_false, if_false]
      exact ih first
    · simp only [ne_eq, h, not_false_eq_true, if_true, ih next]
      split <;> rfl

/-- A further line is added unless it repeats the last one. -/
theorem destutter_concat (lines : List String) (line : String) :
    (lines ++ [line]).destutter (· ≠ ·)
      = if lines.getLast? = some line then lines.destutter (· ≠ ·)
        else lines.destutter (· ≠ ·) ++ [line] := by
  cases lines with
  | nil => rfl
  | cons first rest => exact destutter'_concat first rest line

/-! ## A script that has been shown lines -/

/-- A script that so many lines were shown to, counting those that it did not record. -/
structure Script.Shows (s : Script) (lines : List String) : Prop where
  written : s.written = lines.destutter (· ≠ ·)
  last : s.filter.last = lines.getLast?

namespace Script.Shows

variable {s : Script} {lines : List String}

theorem write (h : s.Shows lines) (line : String) : (s.write line).Shows (lines ++ [line]) := by
  by_cases hlast : s.filter.last = some line
  · have hsame : lines.getLast? = some line := h.last ▸ hlast
    rw [Script.write_of_last hlast]
    refine ⟨?_, hlast.trans List.getLast?_concat.symm⟩
    rw [destutter_concat, if_pos hsame]
    exact h.written
  · have hnew : lines.getLast? ≠ some line := h.last ▸ hlast
    rw [Script.write_of_ne hlast]
    refine ⟨?_, List.getLast?_concat.symm⟩
    rw [destutter_concat, if_neg hnew, ← h.written]
    exact List.reverse_cons

theorem writeAll (h : s.Shows lines) (more : List String) :
    (Channel.writeAll s more).2.Shows (lines ++ more) := by
  induction more generalizing s lines with
  | nil =>
    rw [List.append_nil]
    exact h
  | cons line rest ih =>
    have hrest := ih (h.write line)
    rw [List.append_assoc] at hrest
    exact hrest

theorem read (h : s.Shows lines) : s.read.2.Shows lines := by
  unfold Script.read
  split <;> exact ⟨h.written, h.last⟩

theorem answered (h : s.Shows lines) (node : Node) : (node.answered s).Shows lines :=
  node.answered_keeps (P := fun s : Script => s.Shows lines) (fun _ h => h.read) h

/-- A step shows the lines of the node that it visits. -/
theorem step {w : Walker Script} (h : w.channel.Shows lines) :
    w.step.walker.channel.Shows (lines ++ w.next?.toList.flatMap Node.visibleLines) := by
  cases hnext : w.next? with
  | none =>
    rw [Walker.step_of_next?_none hnext]
    simpa using h
  | some node =>
    rw [Walker.step_channel hnext (Script.writeAll_ok _ _)]
    simpa using (h.writeAll node.visibleLines).answered node

end Script.Shows

namespace Walker

theorem shows_after {w : Walker Script} (h : w.channel.Shows []) (n : Nat) :
    (w.after n).channel.Shows ((w.visited n).flatMap Node.visibleLines) := by
  induction n with
  | zero => exact h
  | succ n ih =>
    rw [visited_succ, List.flatMap_append]
    exact ih.step

/-- **What a walk has written.** After any number of steps these are the visible lines of
the nodes that were visited, in order, with each run of equal neighbours collapsed to one;
so no two neighbours are equal. A step that fails visits no node and adds nothing. -/
theorem written_collapsed (doc : Document) (start : String) (inputs : List String) (n : Nat) :
    ((scripted doc start inputs).after n).channel.written
        = (((scripted doc start inputs).visited n).flatMap Node.visibleLines).destutter (· ≠ ·)
      ∧ ((scripted doc start inputs).after n).channel.written.IsChain (· ≠ ·)
      ∧ ∀ e, ((scripted doc start inputs).after n).step.result = .error e →
        e.OfNode ∧ ((scripted doc start inputs).after n).next? = none
          ∧ (scripted doc start inputs).after (n + 1) = (scripted doc start inputs).after n := by
  have hshows := shows_after (w := scripted doc start inputs) ⟨rfl, rfl⟩ n
  refine ⟨hshows.written, ?_, ?_⟩
  · rw [hshows.written]
    exact List.isChain_destutter _ _
  · intro e he
    obtain ⟨hnode, hstep⟩ := script_error he
    refine ⟨Document.ofNode_of_node hnode, next?_eq_none hnode, ?_⟩
    show ((scripted doc start inputs).after n).step.walker = _
    rw [hstep]

/-- A hall with an echo. What is asked in the yard has just been heard. -/
def echo : Document := .ofList [
  ("hall", .array [.string "dialogue", .array [
    .string "Hello?", .string "Hello?", .string "Who is there?", .string "::GOTO yard",
    .string "Nobody."]]),
  ("yard", .array [.string "msg", .string "Who is there?", .object [
    ("me", .string "::GOTO gate")]])]

/-- Three visits show five lines, two of which are recorded. The gate does not exist. -/
theorem written_collapsed_echo :
    ((scripted echo "hall" ["what?", "me"]).visited 4).flatMap Node.visibleLines
        = ["Hello?", "Hello?", "Who is there?", "Who is there?", "Who is there?"]
      ∧ ((scripted echo "hall" ["what?", "me"]).after 4).channel.written
        = ["Hello?", "Who is there?"]
      ∧ (scripted echo "hall" ["what?", "me"]).after 4
        = (scripted echo "hall" ["what?", "me"]).after 3 := by
  have hlines : ((scripted echo "hall" ["what?", "me"]).visited 4).flatMap Node.visibleLines
      = ["Hello?", "Hello?", "Who is there?", "Who is there?", "Who is there?"] := by rfl
  have hfault : ((scripted echo "hall" ["what?", "me"]).after 3).step.result
      = .error (.unknownNode "gate") := by rfl
  obtain ⟨hwritten, -, -⟩ := written_collapsed echo "hall" ["what?", "me"] 4
  obtain ⟨-, -, hfails⟩ := written_collapsed echo "hall" ["what?", "me"] 3
  refine ⟨hlines, ?_, (hfails _ hfault).2.2⟩
  rw [hwritten, hlines]
  decide

end Walker

end DialogueTree
