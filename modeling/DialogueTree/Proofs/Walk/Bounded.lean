import DialogueTree.Proofs.Channel.Sink
import DialogueTree.Proofs.Walk.Decided

/-!
# Walks at a console are decided, too

A sink may be bounded, so a console can be used up by its output as well as by its input.
Where there is a bound, every line that is put out takes from it, because a line has at
least its line feed and is flushed. Where there is none, nothing can fail, and it does not
matter which lines are suppressed. So a console either has less left, or answers as before
(`Console.Even`), and the bounded walk decides the walk of the program.
-/

namespace DialogueTree

/-! ## Consoles that answer alike -/

namespace Console

/-- Consoles with the same to read and with the same bounds. Without a bound they may
suppress different lines, because that makes no difference to what they answer. -/
structure Even (c d : Console) : Prop where
  input : c.input = d.input
  prompt : c.prompt = d.prompt
  room : c.sink.room = d.sink.room
  flushes : c.sink.flushes = d.sink.flushes
  filter : c.filter = d.filter ∨ c.sink.room = none ∧ c.sink.flushes = none

variable {c d : Console}

theorem lifetime_eq (c : Console) :
    Channel.lifetime c = c.input.length + (c.sink.room.getD 0 + c.sink.flushes.getD 0) := rfl

theorem Even.refl (c : Console) : c.Even c := ⟨rfl, rfl, rfl, rfl, .inl rfl⟩

theorem Even.trans {e : Console} (h : c.Even d) (h' : d.Even e) : c.Even e where
  input := h.input.trans h'.input
  prompt := h.prompt.trans h'.prompt
  room := h.room.trans h'.room
  flushes := h.flushes.trans h'.flushes
  filter := by
    rcases h.filter with hfilter | hnone
    · rcases h'.filter with hfilter' | ⟨hroom, hflushes⟩
      · exact .inl (hfilter.trans hfilter')
      · exact .inr ⟨h.room.trans hroom, h.flushes.trans hflushes⟩
    · exact .inr hnone

/-- Emitting the same bytes answers the same, and the consoles behind it are even. -/
theorem Even.emit (h : c.Even d) (bytes : Bytes) (input : Bytes) {filter filter' : RepeatFilter}
    (hfilter : filter = filter' ∨ c.sink.room = none ∧ c.sink.flushes = none) :
    (Writer.emit c.sink bytes).1 = (Writer.emit d.sink bytes).1
      ∧ Even { c with sink := (Writer.emit c.sink bytes).2, input, filter }
        { d with sink := (Writer.emit d.sink bytes).2, input, filter := filter' } := by
  obtain ⟨hanswer, hroom, hflushes⟩ := Sink.emit_alike h.room h.flushes bytes
  refine ⟨hanswer, rfl, h.prompt, hroom, hflushes, ?_⟩
  rcases hfilter with hfilter | hnone
  · exact .inl hfilter
  · obtain ⟨sink, hemit, hnone', -⟩ := Sink.takes.emit hnone bytes
    rw [hemit]
    exact .inr hnone'

/-- Where nothing is bounded, every line can be written. -/
theorem write_unbounded (hroom : c.sink.room = none) (hflushes : c.sink.flushes = none)
    (line : String) :
    (c.write line).1 = .ok () ∧ (c.write line).2.sink.room = none
      ∧ (c.write line).2.sink.flushes = none ∧ (c.write line).2.input = c.input
      ∧ (c.write line).2.prompt = c.prompt := by
  by_cases hlast : c.filter.last = some line
  · rw [write_of_last hlast]
    exact ⟨rfl, hroom, hflushes, rfl, rfl⟩
  · obtain ⟨sink, hemit, ⟨hroom', hflushes'⟩, -⟩ :=
      Sink.takes.emit ⟨hroom, hflushes⟩ (Text.encode line ++ [lineFeed])
    rw [write_of_ne hlast, hemit]
    exact ⟨rfl, hroom', hflushes', rfl, rfl⟩

theorem alike_even : Channel.Alike Even where
  read := by
    intro c d h
    show c.read.1 = d.read.1 ∧ Even c.read.2 d.read.2
    obtain ⟨input, sink, prompt, filter⟩ := c
    obtain ⟨input', sink', prompt', filter'⟩ := d
    obtain ⟨hanswer, htaken⟩ := h.emit (Text.encode prompt) (splitLine input).2 h.filter
    obtain ⟨-, hkept⟩ := h.emit (Text.encode prompt) input h.filter
    obtain ⟨rfl, rfl, -, -, -⟩ := h
    unfold read
    dsimp only at hanswer htaken hkept ⊢
    generalize Writer.emit sink (Text.encode prompt) = x at hanswer htaken hkept ⊢
    generalize Writer.emit sink' (Text.encode prompt) = y at hanswer htaken hkept ⊢
    obtain ⟨answer, s⟩ := x
    obtain ⟨answer', s'⟩ := y
    cases hanswer
    cases answer with
    | ok _ => exact ⟨rfl, htaken⟩
    | error fault => exact ⟨rfl, hkept⟩
  write := by
    intro c d line h
    show (c.write line).1 = (d.write line).1 ∧ Even (c.write line).2 (d.write line).2
    rcases h.filter with hfilter | ⟨hroom, hflushes⟩
    · by_cases hlast : c.filter.last = some line
      · rw [write_of_last hlast, write_of_last (hfilter ▸ hlast)]
        exact ⟨rfl, h⟩
      · rw [write_of_ne hlast, write_of_ne (hfilter ▸ hlast), ← h.input]
        exact h.emit _ c.input (.inl rfl)
    · obtain ⟨hanswer, hroom', hflushes', hinput', hprompt'⟩ := write_unbounded hroom hflushes line
      obtain ⟨hanswer'', hroom'', hflushes'', hinput'', hprompt''⟩ :=
        write_unbounded (h.room ▸ hroom) (h.flushes ▸ hflushes) line
      exact ⟨hanswer.trans hanswer''.symm, hinput'.trans (h.input.trans hinput''.symm),
        hprompt'.trans (h.prompt.trans hprompt''.symm), hroom'.trans hroom''.symm,
        hflushes'.trans hflushes''.symm, .inr ⟨hroom', hflushes'⟩⟩

/-! ## Consoles that are used up -/

theorem worn_of_shrinks {input : Bytes} {sink : Sink}
    (hinput : Shrinks List.length c.input input)
    (hroom : Shrinks (·.getD 0) c.sink.room sink.room)
    (hflushes : Shrinks (·.getD 0) c.sink.flushes sink.flushes) :
    Channel.Worn Even c { c with input, sink } := by
  have hinputLe := hinput.le
  have hroomLe := hroom.le
  have hflushesLe := hflushes.le
  unfold Channel.Worn
  rw [lifetime_eq, lifetime_eq]
  dsimp only at *
  -- if the sums are the same, so are the summands
  rcases Nat.lt_or_ge (input.length + (sink.room.getD 0 + sink.flushes.getD 0))
    (c.input.length + (c.sink.room.getD 0 + c.sink.flushes.getD 0)) with hless | hge
  · exact .inl hless
  · refine .inr ⟨by omega, hinput.eq (by omega), rfl, hroom.eq ?_, hflushes.eq ?_, .inl rfl⟩
    · show sink.room.getD 0 = c.sink.room.getD 0
      omega
    · show sink.flushes.getD 0 = c.sink.flushes.getD 0
      omega

theorem shrinks_splitLine (input : Bytes) : Shrinks List.length input (splitLine input).2 := by
  cases input with
  | nil => exact .refl _ _
  | cons b rest =>
    apply Shrinks.of_lt
    show (((b :: rest).dropWhile (· != lineFeed)).drop 1).length < (b :: rest).length
    have hle := (List.dropWhile_sublist (l := b :: rest) (· != lineFeed)).length_le
    rw [List.length_drop]
    rw [List.length_cons] at hle ⊢
    omega

/-- **A console is used up by its input and by its output**, as far as these are bounded. -/
theorem wears : Channel.Wears Even where
  alike := alike_even
  refl := Even.refl
  trans := Even.trans
  read := by
    intro c
    show Channel.Worn Even c c.read.2
    obtain ⟨hroom, hflushes⟩ := (c.sink.emits (Text.encode c.prompt)).shrinks
    unfold read
    generalize Writer.emit c.sink (Text.encode c.prompt) = x at hroom hflushes ⊢
    obtain ⟨answer, sink⟩ := x
    cases answer with
    | ok _ => exact worn_of_shrinks (shrinks_splitLine c.input) hroom hflushes
    | error fault => exact worn_of_shrinks (.refl _ _) hroom hflushes
  write := by
    intro c line h
    show Channel.Worn Even c (c.write line).2
    change (c.write line).1 = .ok () at h
    by_cases hlast : c.filter.last = some line
    · rw [write_of_last hlast]
      exact .inr ⟨rfl, .refl c⟩
    · rw [write_of_ne hlast] at h ⊢
      have hemits := c.sink.emits (Text.encode line ++ [lineFeed])
      rw [show (Writer.emit c.sink _).1 = .ok () from h] at hemits
      rcases hemits.less (by simp) with ⟨hroom, hflushes, hroom', hflushes'⟩ | hless
      · refine .inr ⟨?_, rfl, rfl, hroom.trans hroom'.symm, hflushes.trans hflushes'.symm,
          .inr ⟨hroom, hflushes⟩⟩
        rw [lifetime_eq, lifetime_eq, hroom, hflushes, hroom', hflushes']
      · exact .inl (Nat.add_lt_add_left hless c.input.length)

end Console

/-- **The bounded walk decides every walk at a console**, whatever its user types and however
much its sink takes. -/
theorem Walker.console_walk_decided (w : Walker Console) {result : Except Error Phase}
    {v : Walker Console} :
    w.Walks result v ↔
      w.walk.result = some result ∧ result ≠ .ok .running ∧ w.walk.walker = v :=
  walks_iff_walk Console.wears

end DialogueTree
