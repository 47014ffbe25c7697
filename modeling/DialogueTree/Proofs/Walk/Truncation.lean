import DialogueTree.Proofs.Channel.Sink
import DialogueTree.Proofs.Walk.Authored

/-!
# Output that is cut off

A device that is full takes no more bytes, and the walk over it goes another way from then on:
its step has failed, or its question was answered by quitting. Nevertheless what is on the
device is what would be there without the bound, up to the bound.

As long as the bytes fit, a walk over the device and the walk over one without bounds are the
same (`Sink.InStep`). When they do not fit for the first time, the bounded device takes what
there is room for, and the other one takes all. That is the only time at which the two have
to be compared (`Sink.Cut`). Afterwards the full device stays as it is and the other one only
gets longer, whatever the two walks do.
-/

namespace DialogueTree

/-! ## Two sinks -/

namespace Sink

/-- A sink without room. What it has put out is all that it ever will. -/
structure Full (out : Bytes) (s : Sink) : Prop where
  output : s.output = out
  room : s.room = some 0
  flushes : s.flushes = none

/-- A sink without bounds that has put out some bytes, and more behind them. -/
structure Passed (out : Bytes) (s : Sink) : Prop where
  output : out <+: s.output
  more : out.length < s.output.length
  unbounded : s.room = none ∧ s.flushes = none

/-- A sink with room for so many bytes in all and one without bounds, as long as they have
put out the same. -/
structure InStep (limit : Nat) (s t : Sink) : Prop where
  output : s.output = t.output
  room : ∃ left, s.room = some left ∧ t.output.length + left = limit
  flushes : s.flushes = none
  unbounded : t.room = none ∧ t.flushes = none

/-- The same two sinks once there was no room for bytes that both were given. -/
def Cut (limit : Nat) (s t : Sink) : Prop :=
  ∃ out, out.length = limit ∧ s.Full out ∧ t.Passed out

variable {limit : Nat} {out : Bytes} {s t : Sink}

theorem Full.emit (h : s.Full out) (bytes : Bytes) : (Writer.emit s bytes).2.Full out := by
  have hemits := s.emits bytes
  generalize Writer.emit s bytes = x at hemits ⊢
  obtain ⟨answer, s'⟩ := x
  cases hemits with
  | done hroom hflushes houtput =>
    -- no bytes at all still fit
    rw [h.room] at hroom
    rw [h.flushes] at hflushes
    rcases hroom.cases with ⟨hnone, -⟩ | ⟨left, hleft, hsum⟩
    · cases hnone
    · have hzero : left + bytes.length = 0 := (Option.some.inj hsum).symm
      have hempty : bytes = [] := List.eq_nil_of_length_eq_zero (by omega)
      refine ⟨?_, ?_, hflushes.none_left⟩
      · rw [houtput, hempty, List.append_nil, h.output]
      · rw [hleft, show left = 0 by omega]
  | full hroom _ hfull hflushes houtput =>
    cases h.room.symm.trans hroom
    refine ⟨?_, hfull, hflushes.trans h.flushes⟩
    rw [houtput, List.take_zero, List.append_nil, h.output]
  | unflushed _ hnone _ _ =>
    cases h.flushes.symm.trans hnone

theorem Passed.emit (h : t.Passed out) (bytes : Bytes) : (Writer.emit t bytes).2.Passed out := by
  obtain ⟨t', hemit, hunbounded, houtput⟩ := Sink.takes.emit h.unbounded bytes
  rw [hemit]
  refine ⟨?_, ?_, hunbounded⟩
  · rw [houtput]
    exact h.output.trans (List.prefix_append _ _)
  · rw [houtput, List.length_append]
    exact Nat.lt_add_right _ h.more

theorem InStep.length_le (h : s.InStep limit t) : t.output.length ≤ limit := by
  obtain ⟨left, -, hsum⟩ := h.room
  omega

theorem Cut.lt_length (h : s.Cut limit t) : limit < t.output.length := by
  obtain ⟨out, rfl, -, hpassed⟩ := h
  exact hpassed.more

theorem Cut.output (h : s.Cut limit t) : s.output = t.output.take limit := by
  obtain ⟨out, rfl, hfull, hpassed⟩ := h
  rw [hfull.output, ← List.prefix_iff_eq_take]
  exact hpassed.output

/-- **Bytes that both are given fit, or fill the one sink up to its bound.** -/
theorem InStep.emit (h : s.InStep limit t) (bytes : Bytes) :
    (∃ s' t', Writer.emit s bytes = (.ok (), s') ∧ Writer.emit t bytes = (.ok (), t')
      ∧ s'.InStep limit t')
    ∨ ∃ fault s' t', Writer.emit s bytes = (.error fault, s')
      ∧ Writer.emit t bytes = (.ok (), t') ∧ s'.Cut limit t' := by
  obtain ⟨left, hleft, hsum⟩ := h.room
  obtain ⟨t', hemit, hunbounded, houtput⟩ := Sink.takes.emit h.unbounded bytes
  have hemits := s.emits bytes
  generalize Writer.emit s bytes = x at hemits ⊢
  obtain ⟨answer, s'⟩ := x
  cases hemits with
  | done hroom hflushes houtput' =>
    refine .inl ⟨s', t', rfl, hemit, ?_, ?_, ?_, hunbounded⟩
    · rw [houtput', houtput, h.output]
    · rw [hleft] at hroom
      rcases hroom.cases with ⟨hnone, -⟩ | ⟨rest, hrest, hspent⟩
      · cases hnone
      · have hless : left = rest + bytes.length := Option.some.inj hspent
        refine ⟨rest, hrest, ?_⟩
        rw [houtput, List.length_append]
        omega
    · rw [h.flushes] at hflushes
      exact hflushes.none_left
  | full hroom hless hfull hflushes houtput' =>
    cases hleft.symm.trans hroom
    have hlength : (t.output ++ bytes.take left).length = limit := by
      rw [List.length_append, List.length_take, Nat.min_eq_left (Nat.le_of_lt hless), hsum]
    refine .inr ⟨.writeFailed, s', t', rfl, hemit, t.output ++ bytes.take left, hlength,
      ⟨by rw [houtput', h.output], hfull, hflushes.trans h.flushes⟩, ?_, ?_, hunbounded⟩
    · rw [houtput, List.prefix_append_right_inj]
      exact List.take_prefix left bytes
    · rw [hlength, houtput, List.length_append]
      omega
  | unflushed _ hnone _ _ =>
    cases h.flushes.symm.trans hnone

end Sink

/-! ## Two consoles -/

namespace Console

/-- Consoles that differ only in their sinks, which have put out the same. -/
structure InStep (limit : Nat) (c d : Console) : Prop where
  sink : c.sink.InStep limit d.sink
  input : c.input = d.input
  prompt : c.prompt = d.prompt
  filter : c.filter = d.filter

variable {limit : Nat} {c d : Console}

theorem InStep.write (h : c.InStep limit d) (line : String) :
    (d.write line).1 = .ok ()
      ∧ ((c.write line).1 = .ok () ∧ (c.write line).2.InStep limit (d.write line).2
        ∨ ∃ fault, (c.write line).1 = .error fault
          ∧ (c.write line).2.sink.Cut limit (d.write line).2.sink) := by
  by_cases hlast : c.filter.last = some line
  · rw [write_of_last hlast, write_of_last (h.filter ▸ hlast)]
    exact ⟨rfl, .inl ⟨rfl, h⟩⟩
  · rw [write_of_ne hlast, write_of_ne (h.filter ▸ hlast)]
    rcases h.sink.emit (Text.encode line ++ [lineFeed]) with
      ⟨s, t, hemit, hemit', hsink⟩ | ⟨fault, s, t, hemit, hemit', hcut⟩
    · rw [hemit, hemit']
      exact ⟨rfl, .inl ⟨rfl, hsink, h.input, h.prompt, rfl⟩⟩
    · rw [hemit, hemit']
      exact ⟨rfl, .inr ⟨fault, rfl, hcut⟩⟩

/-- A line that is cut off is the last one on the bounded device. On the other one there may be
more behind it. -/
theorem InStep.writeAll (h : c.InStep limit d) (lines : List String) :
    (Channel.writeAll c lines).1 = .ok () ∧ (Channel.writeAll d lines).1 = .ok ()
        ∧ (Channel.writeAll c lines).2.InStep limit (Channel.writeAll d lines).2
      ∨ ∃ fault, (Channel.writeAll c lines).1 = .error fault
        ∧ (Channel.writeAll c lines).2.sink.Cut limit (Channel.writeAll d lines).2.sink := by
  induction lines generalizing c d with
  | nil => exact .inl ⟨rfl, rfl, h⟩
  | cons line rest ih =>
    obtain ⟨hwrite', hwrite⟩ := h.write line
    rw [Channel.writeAll_cons_of_ok (c := d) hwrite']
    rcases hwrite with ⟨hwrite, hnext⟩ | ⟨fault, hwrite, out, hlength, hfull, hpassed⟩
    · rw [Channel.writeAll_cons_of_ok (c := c) hwrite]
      exact ih hnext
    · rw [Channel.writeAll_cons_of_error (c := c) hwrite]
      refine .inr ⟨fault, rfl, out, hlength, hfull, ?_⟩
      exact Channel.writeAll_keeps (P := fun d : Console => d.sink.Passed out)
        (fun line _ d hd => write_keeps (fun _ ht => ht.emit _) hd) hpassed

/-- A question that is cut off is not answered from the input on the bounded device. -/
theorem InStep.answered (h : c.InStep limit d) (node : Node) :
    node.asked c = node.asked d ∧ (node.answered c).InStep limit (node.answered d)
      ∨ (node.answered c).sink.Cut limit (node.answered d).sink := by
  cases node with
  | directive raw => exact .inl ⟨rfl, h⟩
  | dialogue entries => exact .inl ⟨rfl, h⟩
  | message prompt options =>
    show [c.read.1] = [d.read.1] ∧ c.read.2.InStep limit d.read.2
      ∨ c.read.2.sink.Cut limit d.read.2.sink
    unfold read
    rcases h.sink.emit (Text.encode c.prompt) with
      ⟨s, t, hemit, hemit', hsink⟩ | ⟨fault, s, t, hemit, hemit', hcut⟩
    · rw [hemit, ← h.prompt, hemit', ← h.input]
      exact .inl ⟨rfl, hsink, rfl, rfl, h.filter⟩
    · rw [hemit, ← h.prompt, hemit']
      exact .inr hcut

end Console

/-! ## Two walks -/

namespace Walker

variable {limit : Nat} {w v : Walker Console}

/-- **A step does the same on both devices, or is the one in which the bound is met.** -/
theorem step_inStep (h : w.Like (Console.InStep limit) v) :
    w.step.walker.Like (Console.InStep limit) v.step.walker
      ∨ w.step.walker.channel.sink.Cut limit v.step.walker.channel.sink := by
  cases hnext : w.next? with
  | none =>
    have hnext' : v.next? = none := by rw [← h.next?_eq, hnext]
    rw [step_of_next?_none hnext, step_of_next?_none hnext']
    exact .inl h
  | some node =>
    have hnext' : v.next? = some node := by rw [← h.next?_eq, hnext]
    rcases h.channel.writeAll node.visibleLines with
      ⟨hshown, hshown', hlines⟩ | ⟨fault, hshown, out, hlength, hfull, hpassed⟩
    · rcases hlines.answered node with ⟨hasked, hanswered⟩ | hcut
      · left
        have hbehind : Abreast (Console.InStep limit)
            { w with channel := (Channel.writeAll w.channel node.visibleLines).2 }
            { v with channel := (Channel.writeAll v.channel node.visibleLines).2 } :=
          ⟨h.cursor, h.phase, hlines⟩
        obtain ⟨⟨-, hcursor, hphase, hchannel⟩, -⟩ := conclude_abreast hbehind
          (congrArg (fun cursor => [Event.visiting cursor]) h.cursor) node (fun _ => hlines) (by
            rintro prompt options rfl
            exact ⟨congrArg (chosen options) (List.head_eq_of_cons_eq hasked), hanswered⟩)
        rw [← step_of_shown hnext hshown, ← step_of_shown hnext' hshown'] at hcursor hphase hchannel
        refine ⟨?_, hcursor, hphase, hchannel⟩
        rw [step_document, step_document, h.document]
      · right
        rw [step_channel hnext hshown, step_channel hnext' hshown']
        exact hcut
    · -- the bounded walk has failed, and the other one may still read
      right
      refine ⟨out, hlength, ?_, ?_⟩
      · rw [step_of_fault hnext hshown]
        exact hfull
      · exact keeps_of_lines (P := fun d : Console => d.sink.Passed out) hnext'
          (fun d hd => Console.read_keeps (fun _ ht => ht.emit _) hd) hpassed

/-- Whatever the two walks do once the bound is met, the one device stays as it is and the
other one only gets longer. -/
theorem step_cut (h : w.channel.sink.Cut limit v.channel.sink) :
    w.step.walker.channel.sink.Cut limit v.step.walker.channel.sink := by
  obtain ⟨out, hlength, hfull, hpassed⟩ := h
  exact ⟨out, hlength,
    sink_keeps (fun _ hs => hs.emit _) (fun _ _ _ hs => hs.emit _) hfull 1,
    sink_keeps (fun _ ht => ht.emit _) (fun _ _ _ ht => ht.emit _) hpassed 1⟩

theorem after_inStep (h : w.Like (Console.InStep limit) v) (n : Nat) :
    (w.after n).Like (Console.InStep limit) (v.after n)
      ∨ (w.after n).channel.sink.Cut limit (v.after n).channel.sink := by
  induction n with
  | zero => exact .inl h
  | succ n ih =>
    rcases ih with hlike | hcut
    · exact step_inStep hlike
    · exact .inr (step_cut hcut)

/-- A walk that has not begun over a device with so much room, or with no bound. -/
def overDevice (doc : Document) (start prompt : String) (input : Bytes) (room : Option Nat) :
    Walker Console :=
  { document := doc, cursor := start, channel := { input, sink := { room }, prompt } }

/-- **A full device cuts off the output and changes nothing in front of the cut.** However many
steps are made, with steps that failed among them, a walk over a device for so many bytes has
put out the first bytes of what the same walk puts out without a bound. As long as that is no
more than the device takes, the two walks are also at the same place. -/
theorem full_device_truncates (doc : Document) (start prompt : String) (input : Bytes)
    (limit n : Nat) :
    let limited := (overDevice doc start prompt input (some limit)).after n
    let unlimited := (overDevice doc start prompt input none).after n
    limited.channel.sink.output
        = unlimited.channel.sink.output.take (min limit unlimited.channel.sink.output.length)
      ∧ (unlimited.channel.sink.output.length ≤ limit →
        limited.cursor = unlimited.cursor ∧ limited.phase = unlimited.phase
          ∧ limited.channel.input = unlimited.channel.input) := by
  have hbegin : (overDevice doc start prompt input (some limit)).Like (Console.InStep limit)
      (overDevice doc start prompt input none) :=
    ⟨rfl, rfl, rfl, ⟨rfl, ⟨limit, rfl, Nat.zero_add limit⟩, rfl, rfl, rfl⟩, rfl, rfl, rfl⟩
  dsimp only
  rw [← List.take_eq_take_min]
  rcases after_inStep hbegin n with hlike | hcut
  · refine ⟨?_, fun _ => ⟨hlike.cursor, hlike.phase, hlike.channel.input⟩⟩
    rw [hlike.channel.sink.output, List.take_of_length_le hlike.channel.sink.length_le]
  · exact ⟨hcut.output, fun hle => absurd hcut.lt_length (Nat.not_lt.mpr hle)⟩

end Walker

end DialogueTree
