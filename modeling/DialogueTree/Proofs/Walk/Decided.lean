import DialogueTree.Proofs.Include.Layers
import DialogueTree.Proofs.Walk.Output
import Mathlib.Data.Finset.Prod
import Mathlib.Tactic.IntervalCases

/-!
# A walk is decided after a bounded number of steps

Whether a walk ever fails or ends cannot take long to find out. A step that goes on finds
a node, so the cursor is one of the names in the document; and it uses up the channel, or
else leaves it such that all later answers are the same. If so many steps go on that a
cursor comes back with nothing used up in between, the walk is where it was before, and
goes round for ever.

`Walker.walk` makes just so many steps. It therefore decides the loop that steps until a
step fails or ends the walk (`Walks`), although that loop has no bound.
-/

namespace DialogueTree

/-! ## Channels that are used up -/

/-- What is left of a channel: there is less of it, or it answers as before. -/
def Channel.Worn {σ : Type} [Channel σ] (R : σ → σ → Prop) (c d : σ) : Prop :=
  Channel.lifetime d < Channel.lifetime c ∨ Channel.lifetime d = Channel.lifetime c ∧ R c d

/-- A channel that is used up by what it does, unless that changes no answer to come. Lines
that could not be shown do not count, because a step does not go on behind them. -/
structure Channel.Wears {σ : Type} [Channel σ] (R : σ → σ → Prop) : Prop where
  alike : Channel.Alike R
  refl : ∀ c, R c c
  trans : ∀ {c d e}, R c d → R d e → R c e
  read : ∀ c, Channel.Worn R c (Channel.read c).2
  write : ∀ c line, (Channel.write c line).1 = .ok () → Channel.Worn R c (Channel.write c line).2

namespace Walker

/-- Whether the n-th step neither fails nor ends the walk. -/
def GoesOn {σ : Type} [Channel σ] (w : Walker σ) (n : Nat) : Prop :=
  (w.after n).step.result = .ok .running

/-- The loop that steps until a step fails or ends the walk: it ends with the result of that
step, and with the walker behind it. -/
inductive Walks {σ : Type} [Channel σ] : Walker σ → Except Error Phase → Walker σ → Prop where
  | stop {w : Walker σ} : w.step.result ≠ .ok .running → Walks w w.step.result w.step.walker
  | more {w v : Walker σ} {result : Except Error Phase} : w.step.result = .ok .running →
    Walks w.step.walker result v → Walks w result v

end Walker

namespace Channel.Wears

variable {σ : Type} [Channel σ] {R : σ → σ → Prop}

theorem worn_refl (hR : Channel.Wears R) (c : σ) : Channel.Worn R c c := .inr ⟨rfl, hR.refl c⟩

theorem worn_trans (hR : Channel.Wears R) {c d e : σ} (h : Channel.Worn R c d)
    (h' : Channel.Worn R d e) : Channel.Worn R c e := by
  unfold Channel.Worn at *
  rcases h with hless | ⟨heq, halike⟩
  · left
    omega
  · rcases h' with hless' | ⟨heq', halike'⟩
    · left
      omega
    · right
      exact ⟨heq'.trans heq, hR.trans halike halike'⟩

theorem writeAll (hR : Channel.Wears R) {c : σ} {lines : List String}
    (h : (Channel.writeAll c lines).1 = .ok ()) : Channel.Worn R c (Channel.writeAll c lines).2 := by
  induction lines generalizing c with
  | nil => exact hR.worn_refl c
  | cons line rest ih =>
    cases hfirst : (Channel.write c line).1 with
    | error fault =>
      rw [Channel.writeAll_cons_of_error hfirst] at h
      cases h
    | ok _ =>
      rw [Channel.writeAll_cons_of_ok hfirst] at h ⊢
      exact hR.worn_trans (hR.write c line hfirst) (ih h)

theorem answered (hR : Channel.Wears R) (c : σ) (node : Node) :
    Channel.Worn R c (node.answered c) := by
  cases node with
  | directive raw => exact hR.worn_refl c
  | dialogue entries => exact hR.worn_refl c
  | message prompt options => exact hR.read c

end Channel.Wears

namespace Walker

variable {σ : Type} [Channel σ] {R : σ → σ → Prop} {w : Walker σ}

/-- A step goes on only from a running walk to a running walk, and only by visiting a node of
which all lines can be shown. -/
theorem GoesOn.visits {n : Nat} (h : w.GoesOn n) :
    (w.after n).phase = .running ∧ (w.after (n + 1)).phase = .running
      ∧ ∃ node, w.document.node (w.after n).cursor = .ok node
        ∧ (w.after n).next? = some node
        ∧ (Channel.writeAll (w.after n).channel node.visibleLines).1 = .ok () := by
  unfold GoesOn at h
  have hrunning : (w.after n).phase = .running := by
    cases hphase : (w.after n).phase with
    | running => rfl
    | terminated =>
      rw [step_terminated hphase] at h
      cases h
  obtain ⟨node, d, hnode, -, hfollows⟩ := step_follows hrunning h
  have hnext : (w.after n).next? = some node := next?_eq_some_iff.mpr ⟨hrunning, hnode⟩
  refine ⟨hrunning, ?_, node, ?_, hnext, ?_⟩
  · have hanswer := hfollows.answers
    rw [h] at hanswer
    exact (Except.ok.inj hanswer).symm
  · rw [← after_document w n]
    exact hnode
  · cases hshown : (Channel.writeAll (w.after n).channel node.visibleLines).1 with
    | ok _ => rfl
    | error fault =>
      rw [step_of_fault hnext hshown] at h
      cases h

theorem GoesOn.worn (hR : Channel.Wears R) {n : Nat} (h : w.GoesOn n) :
    Channel.Worn R (w.after n).channel (w.after (n + 1)).channel := by
  obtain ⟨-, -, node, -, hnext, hshown⟩ := h.visits
  show Channel.Worn R (w.after n).channel (w.after n).step.walker.channel
  rw [step_channel hnext hshown]
  exact hR.worn_trans (hR.writeAll hshown) (hR.answered _ node)

theorem worn_after (hR : Channel.Wears R) {n : Nat} (h : ∀ k < n, w.GoesOn k) {m : Nat}
    (hm : m ≤ n) : Channel.Worn R (w.after m).channel (w.after n).channel := by
  induction hm with
  | refl => exact hR.worn_refl _
  | @step n _ ih =>
    have hbefore := ih fun k hk => h k (Nat.lt_succ_of_lt hk)
    exact hR.worn_trans hbefore ((h n (Nat.lt_succ_self n)).worn hR)

/-! ## Going round -/

/-- **A walk that is where it was before goes round for ever.** -/
theorem goesOn_of_repeat (hR : Channel.Wears R) {i j : Nat} (hij : i < j)
    (h : ∀ n < j, w.GoesOn n) (hcursor : (w.after i).cursor = (w.after j).cursor)
    (hchannel : R (w.after i).channel (w.after j).channel) (n : Nat) : w.GoesOn n := by
  have hlast := (h (j - 1) (by omega)).visits.2.1
  rw [show j - 1 + 1 = j by omega] at hlast
  have hlike : (w.after i).Like R (w.after j) := {
    document := by rw [after_document, after_document]
    cursor := hcursor
    phase := by rw [(h i hij).visits.1, hlast]
    channel := hchannel }
  -- what happens behind `j` has happened behind `i`, which is nearer
  induction n using Nat.strong_induction_on with
  | _ n ih =>
    by_cases hn : n < j
    · exact h n hn
    · have hearlier : w.GoesOn (i + (n - j)) := ih _ (by omega)
      have hround := step_like hR.alike (after_like hR.alike hlike (n - j))
      have hresult := hround.result
      rw [after_after, after_after, show j + (n - j) = n by omega] at hresult
      exact hresult.symm.trans hearlier

theorem mem_keys_of_goesOn {n : Nat} (h : w.GoesOn n) : (w.after n).cursor ∈ w.document.keys := by
  obtain ⟨-, -, node, hnode, -⟩ := h.visits
  unfold Document.node at hnode
  refine Table.mem_map_fst_iff.mpr ?_
  show (w.document.get? (w.after n).cursor).isSome = true
  cases hraw : w.document.get? (w.after n).cursor with
  | some raw => rfl
  | none =>
    rw [hraw] at hnode
    cases hnode

/-- There are fewer places than steps, if a place is a name in the document together with
how much is left of the channel. -/
theorem exists_repeat (hR : Channel.Wears R) (h : ∀ n < w.bound, w.GoesOn n) :
    ∃ i j, i < j ∧ j < w.bound ∧ (w.after i).cursor = (w.after j).cursor
      ∧ R (w.after i).channel (w.after j).channel := by
  let place (n : Nat) : String × Nat := ((w.after n).cursor, Channel.lifetime (w.after n).channel)
  let places := w.document.keys.toFinset ×ˢ Finset.range (Channel.lifetime w.channel + 1)
  have hplaces : Set.MapsTo place (Finset.range w.bound) places := by
    intro n hn
    have hn : n < w.bound := by simpa using hn
    have hworn := worn_after hR (fun k hk => h k (Nat.lt_trans hk hn)) (Nat.zero_le n)
    have hlifetime : Channel.lifetime (w.after n).channel ≤ Channel.lifetime w.channel := by
      rcases hworn with hless | ⟨heq, -⟩
      · exact Nat.le_of_lt hless
      · exact Nat.le_of_eq heq
    simp only [places, place, Finset.coe_product, Set.mem_prod, Finset.mem_coe, List.mem_toFinset,
      Finset.mem_range]
    exact ⟨mem_keys_of_goesOn (h n hn), Nat.lt_succ_of_le hlifetime⟩
  have hcard : places.card < (Finset.range w.bound).card := by
    have hnames : w.document.keys.toFinset.card ≤ w.document.size := by
      have hlength : w.document.keys.length = w.document.size := List.length_map _
      exact hlength ▸ List.toFinset_card_le _
    rw [Finset.card_product, Finset.card_range, Finset.card_range, bound, Nat.mul_comm]
    exact Nat.mul_lt_mul_of_pos_left (Nat.lt_succ_of_le hnames) (Nat.succ_pos _)
  obtain ⟨i, hi, j, hj, hne, hsame⟩ :=
    Finset.exists_ne_map_eq_of_card_lt_of_maps_to hcard hplaces
  wlog hij : i < j generalizing i j
  · exact this j hj i hi hne.symm hsame.symm (by omega)
  have hj : j < w.bound := by simpa using hj
  obtain ⟨hcursor, hlifetime⟩ := Prod.mk.inj hsame
  refine ⟨i, j, hij, hj, hcursor, ?_⟩
  rcases worn_after hR (fun k hk => h k (Nat.lt_trans hk hj)) (Nat.le_of_lt hij) with hless | heq
  · omega
  · exact heq.2

/-- **Steps that go on for so long go on for ever.** -/
theorem goesOn_of_bound (hR : Channel.Wears R) (h : ∀ n < w.bound, w.GoesOn n) (n : Nat) :
    w.GoesOn n := by
  obtain ⟨i, j, hij, hj, hcursor, hchannel⟩ := exists_repeat hR h
  exact goesOn_of_repeat hR hij (fun k hk => h k (Nat.lt_trans hk hj)) hcursor hchannel n

/-! ## The loop without a bound -/

/-- The n-th step is the first that fails or ends the walk. -/
def EndsAt (w : Walker σ) (n : Nat) : Prop := (∀ k < n, w.GoesOn k) ∧ ¬ w.GoesOn n

theorem exists_endsAt {n : Nat} (h : ¬ w.GoesOn n) : ∃ m ≤ n, w.EndsAt m := by
  induction n using Nat.strong_induction_on with
  | _ n ih =>
    by_cases hbefore : ∀ k < n, w.GoesOn k
    · exact ⟨n, Nat.le_refl n, hbefore, h⟩
    · push Not at hbefore
      obtain ⟨k, hk, hends⟩ := hbefore
      obtain ⟨m, hm, hfirst⟩ := ih k hk hends
      exact ⟨m, by omega, hfirst⟩

theorem goesOn_step (w : Walker σ) (n : Nat) : w.step.walker.GoesOn n ↔ w.GoesOn (n + 1) := by
  unfold GoesOn
  rw [after_step]

theorem EndsAt.step {n : Nat} (h : w.EndsAt (n + 1)) : w.step.walker.EndsAt n :=
  ⟨fun k hk => (goesOn_step w k).mpr (h.1 (k + 1) (by omega)), fun hn => h.2 ((goesOn_step w n).mp hn)⟩

theorem EndsAt.of_step {n : Nat} (hfirst : w.GoesOn 0) (h : w.step.walker.EndsAt n) :
    w.EndsAt (n + 1) := by
  refine ⟨?_, fun hn => h.2 ((goesOn_step w n).mpr hn)⟩
  intro k hk
  cases k with
  | zero => exact hfirst
  | succ k => exact (goesOn_step w k).mp (h.1 k (by omega))

/-- The loop ends with the first step that fails or ends the walk. -/
theorem walks_iff {result : Except Error Phase} {v : Walker σ} :
    w.Walks result v ↔
      ∃ n, w.EndsAt n ∧ (w.after n).step.result = result ∧ w.after (n + 1) = v := by
  constructor
  · intro h
    induction h with
    | @stop w hends => exact ⟨0, ⟨nofun, hends⟩, rfl, rfl⟩
    | @more w v result hgoes _ ih =>
      obtain ⟨n, hends, hresult, hwalker⟩ := ih
      rw [after_step] at hresult hwalker
      exact ⟨n + 1, hends.of_step hgoes, hresult, hwalker⟩
  · intro h
    obtain ⟨n, hends, rfl, rfl⟩ := h
    induction n generalizing w with
    | zero => exact .stop hends.2
    | succ n ih =>
      have hrest := ih hends.step
      rw [after_step, after_step] at hrest
      exact .more (hends.1 0 (Nat.succ_pos n)) hrest

/-- A run that is long enough ends there as well. -/
theorem run_of_endsAt {n m : Nat} (h : w.EndsAt n) (hm : n < m) :
    (w.run m).result = some (w.after n).step.result ∧ (w.run m).walker = w.after (n + 1) := by
  induction n generalizing w m with
  | zero =>
    obtain ⟨m, rfl⟩ := Nat.exists_eq_succ_of_ne_zero (Nat.ne_of_gt hm)
    have hends : w.step.result ≠ .ok .running := h.2
    unfold run
    dsimp only
    split
    · next hgoes => exact absurd hgoes hends
    · exact ⟨rfl, rfl⟩
  | succ n ih =>
    obtain ⟨m, rfl⟩ := Nat.exists_eq_succ_of_ne_zero (Nat.ne_of_gt (Nat.zero_lt_of_lt hm))
    have hgoes : w.step.result = .ok .running := h.1 0 (Nat.succ_pos n)
    obtain ⟨hresult, hwalker⟩ := ih h.step (Nat.lt_of_succ_lt_succ hm)
    rw [after_step] at hresult hwalker
    unfold run
    dsimp only
    rw [hgoes]
    dsimp only
    rw [hresult]
    exact ⟨rfl, hwalker⟩

theorem run_of_goesOn {m : Nat} (h : ∀ k < m + 1, w.GoesOn k) :
    (w.run (m + 1)).result = some (.ok .running) := by
  induction m generalizing w with
  | zero =>
    have hgoes : w.step.result = .ok .running := h 0 Nat.one_pos
    simp [run, hgoes]
  | succ m ih =>
    have hgoes : w.step.result = .ok .running := h 0 (Nat.succ_pos _)
    have hrest := ih fun k hk => (goesOn_step w k).mpr (h (k + 1) (by omega))
    unfold run
    dsimp only
    rw [hgoes]
    dsimp only
    rw [hrest]
    rfl

theorem EndsAt.lt_bound (hR : Channel.Wears R) {n : Nat} (h : w.EndsAt n) : n < w.bound := by
  by_contra hn
  have hgoes : ∀ k < w.bound, w.GoesOn k := fun k hk => h.1 k (by omega)
  exact h.2 (goesOn_of_bound hR hgoes n)

/-- **The bounded walk decides the loop without a bound.** -/
theorem walks_iff_walk (hR : Channel.Wears R) {result : Except Error Phase} {v : Walker σ} :
    w.Walks result v ↔
      w.walk.result = some result ∧ result ≠ .ok .running ∧ w.walk.walker = v := by
  rw [walks_iff]
  constructor
  · intro h
    obtain ⟨n, hends, rfl, rfl⟩ := h
    obtain ⟨hresult, hwalker⟩ := run_of_endsAt hends (hends.lt_bound hR)
    exact ⟨hresult, hends.2, hwalker⟩
  · intro h
    obtain ⟨hresult, hne, hwalker⟩ := h
    by_cases hgoes : ∀ k < w.bound, w.GoesOn k
    · exfalso
      obtain ⟨m, hm⟩ : ∃ m, w.bound = m + 1 :=
        Nat.exists_eq_succ_of_ne_zero (Nat.mul_ne_zero (Nat.succ_ne_zero _) (Nat.succ_ne_zero _))
      unfold walk at hresult
      rw [hm, run_of_goesOn (hm ▸ hgoes)] at hresult
      exact hne (Option.some.inj hresult).symm
    · push Not at hgoes
      obtain ⟨k, -, hk⟩ := hgoes
      obtain ⟨n, -, hends⟩ := exists_endsAt hk
      obtain ⟨hresult', hwalker'⟩ := run_of_endsAt hends (hends.lt_bound hR)
      refine ⟨n, hends, ?_, ?_⟩
      · exact Option.some.inj (hresult'.symm.trans hresult)
      · exact hwalker'.symm.trans hwalker

end Walker

/-! ## Walks over a script -/

/-- A script is used up by giving its inputs. -/
theorem Script.wears : Channel.Wears fun c d : Script => c.inputs = d.inputs where
  alike := {
    read := by
      intro c d h
      show c.read.1 = d.read.1 ∧ c.read.2.inputs = d.read.2.inputs
      rw [read_eq, read_eq, h]
      exact ⟨rfl, rfl⟩
    write := by
      intro c d line h
      show _ ∧ (c.write line).inputs = (d.write line).inputs
      rw [inputs_write, inputs_write]
      exact ⟨rfl, h⟩ }
  refl _ := rfl
  trans h h' := h.trans h'
  read := by
    intro c
    show c.read.2.inputs.length < c.inputs.length
      ∨ c.read.2.inputs.length = c.inputs.length ∧ c.inputs = c.read.2.inputs
    rw [read_eq]
    cases c.inputs with
    | nil => exact .inr ⟨rfl, rfl⟩
    | cons input rest => exact .inl (Nat.lt_succ_self _)
  write := by
    intro c line _
    exact .inr ⟨congrArg List.length (inputs_write c line), (inputs_write c line).symm⟩

namespace Walker

/-- A step that ends the walk leaves a walker that has ended. -/
theorem terminated_of_ok {w : Walker Script} {phase : Phase} (h : w.step.result = .ok phase)
    (hends : w.step.result ≠ .ok .running) :
    phase = .terminated ∧ w.step.walker.phase = .terminated := by
  have hphase : phase = .terminated := by
    cases phase with
    | running => exact absurd h hends
    | terminated => rfl
  refine ⟨hphase, ?_⟩
  cases hbefore : w.phase with
  | terminated => rw [step_terminated hbefore, hbefore]
  | running =>
    obtain ⟨node, d, -, -, hfollows⟩ := step_follows hbefore h
    have hanswer := hfollows.answers
    rw [h, hphase] at hanswer
    exact (Except.ok.inj hanswer).symm

/-- Over a script nothing changes any more once a step has failed or ended the walk. -/
theorem script_decided {w : Walker Script} {n : Nat} (h : ¬ w.GoesOn n) (k : Nat) :
    (w.after (n + k)).step.result = (w.after n).step.result
      ∧ w.after (n + k + 1) = w.after (n + 1) := by
  cases hresult : (w.after n).step.result with
  | error e =>
    have hstep : (w.after n).step.walker = w.after n := by rw [(script_error hresult).2]
    have hstays := after_of_step_eq hstep
    rw [← after_after, hstays k, show n + k + 1 = n + (k + 1) by omega, ← after_after,
      hstays (k + 1)]
    exact ⟨hresult, hstep.symm⟩
  | ok phase =>
    obtain ⟨rfl, hlast⟩ := terminated_of_ok hresult h
    have hended : (w.after (n + 1)).phase = .terminated := hlast
    have hstays := after_terminated hended
    cases k with
    | zero => exact ⟨hresult, rfl⟩
    | succ k =>
      have hsame : w.after (n + (k + 1)) = w.after (n + 1) := by
        rw [← hstays k]
        congr 1
        omega
      rw [hsame, show n + (k + 1) + 1 = n + 1 + (k + 1) by omega, hstays (k + 1),
        step_terminated hended]
      exact ⟨rfl, rfl⟩

/-- **A walk over a script is decided after a bounded number of steps.** The bound is taken
from the inputs that are left, `m` of them, and from the `N` names in the document. If the
first `(m + 1) * (N + 1)` steps all go on, so does every later one. The loop without a bound
ends just if one of these steps fails or ends the walk, with the result of that step and
with the walker behind it. And it ends just if the bounded walk does, in the same way. -/
theorem walk_decided (w : Walker Script) :
    ((∀ n < (w.channel.inputs.length + 1) * (w.document.size + 1),
        (w.after n).step.result = .ok .running) → ∀ n, (w.after n).step.result = .ok .running)
      ∧ (∀ result v, w.Walks result v ↔
        ∃ n < (w.channel.inputs.length + 1) * (w.document.size + 1),
          (w.after n).step.result = result ∧ result ≠ .ok .running ∧ w.after (n + 1) = v)
      ∧ ∀ result v, w.Walks result v ↔
        w.walk.result = some result ∧ result ≠ .ok .running ∧ w.walk.walker = v := by
  refine ⟨fun h => goesOn_of_bound Script.wears h, ?_, fun _ _ => walks_iff_walk Script.wears⟩
  intro result v
  rw [walks_iff]
  constructor
  · intro h
    obtain ⟨n, hends, rfl, rfl⟩ := h
    exact ⟨n, hends.lt_bound Script.wears, rfl, hends.2, rfl⟩
  · intro h
    obtain ⟨n, -, rfl, hne, rfl⟩ := h
    obtain ⟨m, hm, hends⟩ := exists_endsAt hne
    obtain ⟨k, rfl⟩ := Nat.exists_eq_add_of_le hm
    obtain ⟨hresult, hwalker⟩ := script_decided hends.2 k
    exact ⟨m, hends, hresult.symm, hwalker.symm⟩

/-- A mill in which the wheel turns the stone and the stone turns the wheel. -/
def mill : Walker Script where
  document := .ofList [
    ("wheel", .array [.string "dialogue", .array [.string "It turns.", .string "::GOTO stone"]]),
    ("stone", .array [.string "directive", .string "::GOTO wheel"])]
  cursor := "wheel"
  channel := { inputs := ["stop"] }

/-- Nobody asks the miller, so the mill goes round for ever. The way through the porch ends
with its third step. -/
theorem walk_decided_mill :
    ((∀ n < 6, (mill.after n).step.result = .ok .running)
      ∧ (∀ n, (mill.after n).step.result = .ok .running)
      ∧ ∀ result v, ¬ mill.Walks result v)
    ∧ porch.Walks (.ok .terminated) (porch.after 3) ∧ porch.walk.walker = porch.after 3 := by
  have hfirst : ∀ n < 6, (mill.after n).step.result = .ok .running := by
    intro n hn
    interval_cases n <;> rfl
  have hlast : (porch.after 2).step.result = .ok .terminated := by rfl
  obtain ⟨hmill, hends, -⟩ := walk_decided mill
  obtain ⟨-, hporch, hwalk⟩ := walk_decided porch
  have hwalks : porch.Walks (.ok .terminated) (porch.after 3) :=
    (hporch _ _).mpr ⟨2, by decide, hlast, nofun, rfl⟩
  refine ⟨⟨hfirst, hmill hfirst, ?_⟩, hwalks, ((hwalk _ _).mp hwalks).2.2⟩
  intro result v hmillWalks
  obtain ⟨n, -, hresult, hne, -⟩ := (hends result v).mp hmillWalks
  exact hne (hresult.symm.trans (hmill hfirst n))

end Walker

end DialogueTree
