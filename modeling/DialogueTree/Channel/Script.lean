import DialogueTree.Channel

/-!
# Scripted channels

A channel whose inputs are given beforehand and which records what it is shown.
-/

namespace DialogueTree

/-- Inputs to come, the lines shown so far, the last one first, and how often an input
was asked for. -/
structure Script where
  inputs : List String := []
  shown : List String := []
  reads : Nat := 0
  filter : RepeatFilter := {}
  deriving Repr, DecidableEq

namespace Script

/-- The lines shown so far, in order. -/
def written (s : Script) : List String := s.shown.reverse

/-- The next input. -/
def read (s : Script) : String × Script :=
  match s.inputs with
  | [] => (Reserved.quit, { s with reads := s.reads + 1 })
  | input :: rest => (input, { s with inputs := rest, reads := s.reads + 1 })

/-- Records a line, unless it repeats the one before it. -/
def write (s : Script) (line : String) : Script :=
  match s.filter.accept line with
  | (true, filter) => { s with shown := line :: s.shown, filter }
  | (false, filter) => { s with filter }

instance : Channel Script where
  read := read
  write s line := (.ok (), s.write line)
  lifetime s := s.inputs.length

theorem read_eq (s : Script) :
    s.read = (s.inputs.headD Reserved.quit,
      { s with inputs := s.inputs.tail, reads := s.reads + 1 }) := by
  obtain ⟨inputs, shown, reads, filter⟩ := s
  cases inputs <;> rfl

/-- A line that repeats the one before it is not recorded. -/
theorem write_of_last {s : Script} {line : String} (h : s.filter.last = some line) :
    s.write line = s := by
  unfold write RepeatFilter.accept
  rw [if_pos h]

theorem write_of_ne {s : Script} {line : String} (h : s.filter.last ≠ some line) :
    s.write line = { s with shown := line :: s.shown, filter := ⟨some line⟩ } := by
  unfold write RepeatFilter.accept
  rw [if_neg h]

@[simp] theorem inputs_write (s : Script) (line : String) : (s.write line).inputs = s.inputs := by
  unfold write
  split <;> rfl

@[simp] theorem reads_write (s : Script) (line : String) : (s.write line).reads = s.reads := by
  unfold write
  split <;> rfl

theorem written_read (s : Script) : s.read.2.written = s.written := by
  rw [read_eq]
  rfl

theorem mem_written_write {s : Script} {line other : String} (h : other ∈ (s.write line).written) :
    other = line ∨ other ∈ s.written := by
  by_cases hlast : s.filter.last = some line
  · rw [write_of_last hlast] at h
    exact .inr h
  · rw [write_of_ne hlast] at h
    rcases List.mem_cons.mp (List.mem_reverse.mp h) with hline | hbefore
    · exact .inl hline
    · exact .inr (List.mem_reverse.mpr hbefore)

/-- What is recorded of a line depends only on what has been shown before. -/
theorem write_congr {s t : Script} (hshown : s.shown = t.shown) (hfilter : s.filter = t.filter)
    (line : String) :
    (s.write line).shown = (t.write line).shown
      ∧ (s.write line).filter = (t.write line).filter := by
  unfold write
  rw [hfilter, hshown]
  split <;> exact ⟨rfl, rfl⟩

end Script

end DialogueTree
