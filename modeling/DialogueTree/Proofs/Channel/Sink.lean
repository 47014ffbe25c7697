import DialogueTree.Channel.Console

/-!
# Writers and sinks

Two kinds of writers matter. One takes what it is given and never fails (`Writer.Takes`); all
that is then to be known is what it has put out. The other is a sink with bounds, and all
that it can do with bytes is one of three things (`Sink.Emits`): take them, run out of room
in the middle of them, or fail to flush them.

What emitting costs is kept in the same form for room and for flushes: `Spent` says how much
was taken from a bound if there is one.
-/

namespace DialogueTree

/-! ## What emitting costs -/

/-- A bound from which so much was taken, or none. -/
def Spent (before : Option Nat) (cost : Nat) (left : Option Nat) : Prop :=
  before = left.map (· + cost)

/-- A measure that has not grown, of something that changes only if its measure does. -/
structure Shrinks {α : Type} (measure : α → Nat) (before left : α) : Prop where
  le : measure left ≤ measure before
  eq : measure left = measure before → before = left

theorem Shrinks.refl {α : Type} (measure : α → Nat) (x : α) : Shrinks measure x x :=
  ⟨Nat.le_refl _, fun _ => rfl⟩

theorem Shrinks.of_lt {α : Type} {measure : α → Nat} {before left : α}
    (h : measure left < measure before) : Shrinks measure before left :=
  ⟨Nat.le_of_lt h, fun heq => absurd heq (Nat.ne_of_lt h)⟩

theorem Spent.cases {before left : Option Nat} {cost : Nat} (h : Spent before cost left) :
    before = none ∧ left = none ∨ ∃ n, left = some n ∧ before = some (n + cost) := by
  cases left with
  | none => exact .inl ⟨h, rfl⟩
  | some n => exact .inr ⟨n, rfl, h⟩

theorem Spent.none_left {cost : Nat} {left : Option Nat} (h : Spent none cost left) :
    left = none := by
  rcases h.cases with ⟨-, hleft⟩ | ⟨n, -, hbefore⟩
  · exact hleft
  · cases hbefore

theorem Spent.shrinks {before left : Option Nat} {cost : Nat} (h : Spent before cost left) :
    Shrinks (·.getD 0) before left := by
  rcases h.cases with ⟨rfl, rfl⟩ | ⟨n, rfl, rfl⟩
  · exact .refl _ _
  · cases cost with
    | zero => exact .refl _ _
    | succ cost => exact .of_lt (Nat.lt_add_of_pos_right (Nat.succ_pos cost))

namespace Sink

/-- All that emitting bytes can do to a sink. -/
inductive Emits (s : Sink) (bytes : Bytes) : Except OutputFault Unit → Sink → Prop where
  | done {s' : Sink} : Spent s.room bytes.length s'.room → Spent s.flushes 1 s'.flushes →
      s'.output = s.output ++ bytes → Emits s bytes (.ok ()) s'
  | full {s' : Sink} {n : Nat} : s.room = some n → n < bytes.length → s'.room = some 0 →
      s'.flushes = s.flushes → s'.output = s.output ++ bytes.take n →
      Emits s bytes (.error .writeFailed) s'
  | unflushed {s' : Sink} : Spent s.room bytes.length s'.room → s.flushes = some 0 →
      s'.flushes = some 0 → s'.output = s.output ++ bytes →
      Emits s bytes (.error .flushFailed) s'

theorem put_cases (s : Sink) (bytes : Bytes) :
    (∃ room, Writer.put s bytes = (.ok (), s.take bytes room) ∧ Spent s.room bytes.length room)
    ∨ ∃ n, s.room = some n ∧ n < bytes.length
      ∧ Writer.put s bytes = (.error .writeFailed, s.take (bytes.take n) (some 0)) := by
  have hput : Writer.put s bytes = s.put bytes := rfl
  rw [hput, put]
  cases s.room with
  | none => exact .inl ⟨none, rfl, rfl⟩
  | some n =>
    dsimp only
    by_cases hfits : bytes.length ≤ n
    · rw [if_pos hfits]
      exact .inl ⟨some (n - bytes.length), rfl, congrArg some (Nat.sub_add_cancel hfits).symm⟩
    · rw [if_neg hfits]
      exact .inr ⟨n, rfl, by omega, rfl⟩

theorem flush_cases (s : Sink) :
    (∃ flushes, Writer.flush s = (.ok (), { s with flushes }) ∧ Spent s.flushes 1 flushes)
    ∨ s.flushes = some 0 ∧ Writer.flush s = (.error .flushFailed, s) := by
  have hflush : Writer.flush s = s.flush := rfl
  obtain ⟨room, flushes, taken⟩ := s
  rw [hflush, flush]
  cases flushes with
  | none => exact .inl ⟨none, rfl, rfl⟩
  | some k =>
    cases k with
    | zero => exact .inr ⟨rfl, rfl⟩
    | succ k => exact .inl ⟨some k, rfl, rfl⟩

/-- Flushing puts out nothing more. -/
theorem output_flush (s : Sink) : (Writer.flush s).2.output = s.output := by
  rcases flush_cases s with ⟨flushes, hflush, -⟩ | ⟨-, hflush⟩
  · rw [hflush]
    rfl
  · rw [hflush]

theorem emits (s : Sink) (bytes : Bytes) :
    s.Emits bytes (Writer.emit s bytes).1 (Writer.emit s bytes).2 := by
  rcases put_cases s bytes with ⟨room, hput, hspent⟩ | ⟨n, hroom, hless, hput⟩
  · rw [Writer.emit_of_ok (by rw [hput]), hput]
    have houtput := output_take s bytes room
    rcases flush_cases (s.take bytes room) with ⟨flushes, hflush, hspent'⟩ | ⟨hnone, hflush⟩
    · rw [hflush]
      exact .done hspent hspent' houtput
    · rw [hflush]
      exact .unflushed hspent hnone hnone houtput
  · rw [Writer.emit_of_error (by rw [hput]), hput]
    exact .full hroom hless rfl rfl (output_take s _ _)

/-- What emitting answers, and the bounds that it leaves, do not depend on what has been put
out before. -/
theorem emit_alike {s t : Sink} (hroom : s.room = t.room) (hflushes : s.flushes = t.flushes)
    (bytes : Bytes) :
    (Writer.emit s bytes).1 = (Writer.emit t bytes).1
      ∧ (Writer.emit s bytes).2.room = (Writer.emit t bytes).2.room
      ∧ (Writer.emit s bytes).2.flushes = (Writer.emit t bytes).2.flushes := by
  obtain ⟨room, flushes, taken⟩ := s
  obtain ⟨room', flushes', taken'⟩ := t
  cases hroom
  cases hflushes
  unfold Writer.emit Writer.put instWriter put take
  dsimp only
  cases room with
  | none => rcases flushes with _ | _ | k <;> exact ⟨rfl, rfl, rfl⟩
  | some n =>
    dsimp only
    by_cases hfits : bytes.length ≤ n
    · rw [if_pos hfits, if_pos hfits]
      rcases flushes with _ | _ | k <;> exact ⟨rfl, rfl, rfl⟩
    · rw [if_neg hfits, if_neg hfits]
      exact ⟨rfl, rfl, rfl⟩

theorem Emits.shrinks {s s' : Sink} {bytes : Bytes} {answer : Except OutputFault Unit}
    (h : s.Emits bytes answer s') :
    Shrinks (·.getD 0) s.room s'.room ∧ Shrinks (·.getD 0) s.flushes s'.flushes := by
  cases h with
  | done hroom hflushes _ => exact ⟨hroom.shrinks, hflushes.shrinks⟩
  | @full _ n hroom _ hfull hflushes _ =>
    rw [hroom, hfull, hflushes]
    refine ⟨?_, .refl _ _⟩
    cases n with
    | zero => exact .refl _ _
    | succ n => exact .of_lt (Nat.succ_pos n)
  | unflushed hroom hnone hnone' _ =>
    rw [hnone, hnone']
    exact ⟨hroom.shrinks, .refl _ _⟩

/-- Putting out bytes takes from every bound, so it leaves less unless there is none. -/
theorem Emits.less {s s' : Sink} {bytes : Bytes} (h : s.Emits bytes (.ok ()) s')
    (hbytes : bytes ≠ []) :
    s.room = none ∧ s.flushes = none ∧ s'.room = none ∧ s'.flushes = none
      ∨ s'.room.getD 0 + s'.flushes.getD 0 < s.room.getD 0 + s.flushes.getD 0 := by
  have hlength : 0 < bytes.length := List.length_pos_iff.mpr hbytes
  cases h with
  | done hroom hflushes _ =>
    rcases hroom.cases with ⟨hroom, hroom'⟩ | ⟨n, hroom', hroom⟩
    · rcases hflushes.cases with ⟨hflushes, hflushes'⟩ | ⟨k, hflushes', hflushes⟩
      · exact .inl ⟨hroom, hflushes, hroom', hflushes'⟩
      · right
        rw [hroom, hroom', hflushes, hflushes']
        simp
    · right
      have hle : s'.flushes.getD 0 ≤ s.flushes.getD 0 := hflushes.shrinks.le
      rw [hroom, hroom', Option.getD_some, Option.getD_some]
      omega

end Sink

/-! ## Writers that never fail -/

/-- A writer that takes what it is given, as long as it is in a good state: it never fails,
stays in a good state, and has put out the bytes behind those it had put out before. -/
structure Writer.Takes {ω : Type} [Writer ω] (good : ω → Prop) (output : ω → Bytes) : Prop where
  put : ∀ {s} (bytes : Bytes), good s →
    (Writer.put s bytes).1 = .ok () ∧ good (Writer.put s bytes).2
      ∧ output (Writer.put s bytes).2 = output s ++ bytes
  flush : ∀ {s}, good s →
    (Writer.flush s).1 = .ok () ∧ good (Writer.flush s).2
      ∧ output (Writer.flush s).2 = output s

theorem Writer.Takes.emit {ω : Type} [Writer ω] {good : ω → Prop} {output : ω → Bytes}
    (h : Writer.Takes good output) {s : ω} (hs : good s) (bytes : Bytes) :
    ∃ s', Writer.emit s bytes = (.ok (), s') ∧ good s' ∧ output s' = output s ++ bytes := by
  obtain ⟨hput, hgood, hbytes⟩ := h.put bytes hs
  obtain ⟨hflush, hgood', hbytes'⟩ := h.flush hgood
  refine ⟨(Writer.flush (Writer.put s bytes).2).2, ?_, hgood', hbytes'.trans hbytes⟩
  rw [Writer.emit_of_ok hput]
  exact Prod.ext hflush rfl

/-- A sink without bounds takes what it is given. -/
theorem Sink.takes :
    Writer.Takes (fun s : Sink => s.room = none ∧ s.flushes = none) Sink.output where
  put := by
    intro s bytes hs
    rcases Sink.put_cases s bytes with ⟨room, hput, hspent⟩ | ⟨n, hroom, -, -⟩
    · rw [hput]
      rw [hs.1] at hspent
      exact ⟨rfl, ⟨hspent.none_left, hs.2⟩, Sink.output_take s bytes room⟩
    · rw [hs.1] at hroom
      cases hroom
  flush := by
    intro s hs
    rcases Sink.flush_cases s with ⟨flushes, hflush, hspent⟩ | ⟨hnone, -⟩
    · rw [hflush]
      rw [hs.2] at hspent
      exact ⟨rfl, ⟨hs.1, hspent.none_left⟩, rfl⟩
    · rw [hs.2] at hnone
      cases hnone

end DialogueTree
