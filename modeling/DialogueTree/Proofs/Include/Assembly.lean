import DialogueTree.Proofs.Include.Resolving
import Mathlib.Data.List.Dedup
import Mathlib.Logic.Function.Iterate

/-!
# The chain of files, moment by moment

`Shelf.resolveOn` is given the chain and never gives it back. The chain that grows and
shrinks while documents are put together shows in a machine that makes one move at a
time: it has one chain, onto which a place is put before the document of a file is
put together, and from which it is taken when the result comes back, be it a document
or an error.

The machine does what `Shelf.resolve` does (`resolve_returns`), and every call gives
the chain back as it found it. At every moment the places on the chain are distinct,
and all but that of the origin are those of files, so documents cannot be nested
deeper than there are files.
-/

namespace DialogueTree

namespace Assembly

/-- One thing to be included: an entry of a list, or a target that an entry stands for. -/
inductive Task where
  | entry (entry : String)
  | target (target : Target)

/-- A call that has not returned yet. -/
inductive Call where
  /-- Puts a document together. Its list of includes has not been read yet. -/
  | resolve (doc : Document)
  /-- Includes one thing over what has been merged so far. -/
  | one (merged : Document) (task : Task)
  /-- Includes what is left of several things, one after the other. -/
  | several (merged : Document) (left : List Task)
  /-- Waits for the document of a file. The place of the file is on the chain. -/
  | waiting (merged : Document)

end Assembly

/-- A moment on the way to a document: the chain, the calls that have not returned, the
innermost first, the answer that is handed back to the innermost one, if there is one,
and what has been told. -/
structure Assembly where
  chain : List Place
  calls : List Assembly.Call
  answer : Option (Except Error Document)
  events : List Event

namespace Assembly

/-- Makes a call from within the ones that have not returned. -/
def call (a : Assembly) (c : Call) : Assembly := { a with calls := c :: a.calls, answer := none }

/-- Hands an answer back to the innermost call. -/
def give (a : Assembly) (r : Except Error Document) : Assembly := { a with answer := some r }

/-- Tells an event after all that has been told. -/
def tell (a : Assembly) (e : Event) : Assembly := { a with events := a.events ++ [e] }

/-- Puts a place on the chain. -/
def push (a : Assembly) (place : Place) : Assembly := { a with chain := place :: a.chain }

/-- Takes the last place off the chain. -/
def pop (a : Assembly) : Assembly := { a with chain := a.chain.tail }

/-- Goes into a target. If its file is read, its place is put on the chain and its document is put
together, while a call below waits for that. -/
def enter (t : FileTree) (a : Assembly) (merged : Document) : Target → Assembly
  | .unlisted fault => a.give (.error (.refused fault))
  | .file path =>
    if t.isFile path then
      match t.canonical path with
      | .error fault => a.give (.error (.refused fault))
      | .ok place =>
        if a.chain.contains place then a.give (.error (.includeCycle path))
        else
          match (Source.path path).load t with
          | .error e => (a.tell (.including path)).give (.error e)
          | .ok included =>
            (((a.tell (.including path)).push place).call (.waiting merged)).call
              (.resolve included)
    else a.give (.error (.includeNotFound path))

/-- Goes on with a call. -/
def proceed (s : Shelf) (t : FileTree) (a : Assembly) : Call → Assembly
  | .resolve doc =>
    match doc.includes with
    | .error e => a.give (.error e)
    | .ok entries => a.call (.several doc (entries.map .entry))
  | .one merged (.entry entry) => a.call (.several merged ((s.targets t entry).map .target))
  | .one merged (.target target) => a.enter t merged target
  | .several merged [] => a.give (.ok merged)
  | .several merged (task :: left) => (a.call (.several merged left)).call (.one merged task)
  | .waiting merged => a.call (.waiting merged)

/-- Goes on with a call that has been handed an answer. -/
def resume (a : Assembly) (r : Except Error Document) : Call → Assembly
  | .several _ left =>
    match r with
    | .ok merged => a.call (.several merged left)
    | .error e => a.give (.error e)
  | .waiting merged => a.pop.give (r.map merged.merge)
  | _ => a.give r

/-- Makes one move. Without calls there is nothing left to do. -/
def step (s : Shelf) (t : FileTree) (a : Assembly) : Assembly :=
  match a.calls, a.answer with
  | [], _ => a
  | c :: calls, none => proceed s t { a with calls } c
  | c :: calls, some r => resume { a with calls, answer := none } r c

/-- The moment at which a document is about to be put together on a chain. -/
def start (chain : List Place) (doc : Document) : Assembly := ⟨chain, [.resolve doc], none, []⟩

/-- Whether a call waits for the document of a file. -/
def Call.waits : Call → Bool
  | .waiting _ => true
  | _ => false

/-- How many files are being included, one inside the other. -/
def depth (a : Assembly) : Nat := a.calls.countP Call.waits

/-- The moment at which a call has returned: nothing but the answer and the events is
not as it was before the call. -/
def returned (a : Assembly) (x : Traced Document) : Assembly :=
  { a with answer := some x.result, events := a.events ++ x.events }

variable {s : Shelf} {t : FileTree}

/-! ## Calls return -/

/-- One moment comes before another. -/
def Reaches (s : Shelf) (t : FileTree) (a b : Assembly) : Prop := ∃ n, (step s t)^[n] a = b

theorem Reaches.trans {a b c : Assembly} (hab : Reaches s t a b) (hbc : Reaches s t b c) :
    Reaches s t a c := by
  obtain ⟨m, rfl⟩ := hab
  obtain ⟨n, rfl⟩ := hbc
  exact ⟨n + m, Function.iterate_add_apply _ n m a⟩

theorem Reaches.of_proceed {a b : Assembly} {c : Call}
    (h : Reaches s t (proceed s t { a with answer := none } c) b) : Reaches s t (a.call c) b := by
  obtain ⟨n, rfl⟩ := h
  exact ⟨n + 1, rfl⟩

theorem Reaches.of_resume {a b : Assembly} {c : Call} {x : Traced Document}
    (h : Reaches s t
      (resume { a with answer := none, events := a.events ++ x.events } x.result c) b) :
    Reaches s t ((a.call c).returned x) b := by
  obtain ⟨n, rfl⟩ := h
  exact ⟨n + 1, rfl⟩

/-- If single things are included as `f` says, several are included by folding `f`. -/
theorem several_returns {chain : List Place} {f : Document → Task → Traced Document}
    {tasks : List Task}
    (hone : ∀ task ∈ tasks, ∀ (a : Assembly) (merged : Document), a.chain = chain →
      Reaches s t (a.call (.one merged task)) (a.returned (f merged task)))
    (a : Assembly) (merged : Document) (hchain : a.chain = chain) :
    Reaches s t (a.call (.several merged tasks)) (a.returned (Traced.fold f merged tasks)) := by
  -- the call for the rest waits below the call for the first task and takes its answer
  induction tasks generalizing a merged with
  | nil =>
    refine .of_proceed ⟨0, ?_⟩
    simp [proceed, give, returned, Traced.ok]
  | cons task left ih =>
    have htask := hone task List.mem_cons_self (a.call (.several merged left)) merged hchain
    refine .of_proceed (htask.trans (.of_resume ?_))
    rw [Traced.fold_cons]
    cases hresult : (f merged task).result with
    | ok next =>
      have hrest := ih (fun task hmem => hone task (List.mem_cons_of_mem _ hmem))
        { a with answer := none, events := a.events ++ (f merged task).events } next hchain
      simpa [resume, returned, Traced.bind, hresult] using hrest
    | error e =>
      refine ⟨0, ?_⟩
      simp [resume, give, returned, Traced.bind, hresult]

theorem enter_of_misses {a : Assembly} {merged : Document} {target : Target} {e : Error}
    (h : t.Misses target e) : a.enter t merged target = a.give (.error e) := by
  cases h with
  | unlisted fault => rfl
  | notFound hno => simp only [enter, hno, Bool.false_eq_true, if_false]
  | unplaced hfile hfault => simp only [enter, hfile, if_true, hfault]

theorem enter_of_mem {a : Assembly} {merged : Document} {path : String} {place : Place}
    (hleads : t.Leads path place) (hon : place ∈ a.chain) :
    a.enter t merged (.file path) = a.give (.error (.includeCycle path)) := by
  simp only [enter, if_pos hleads.1, hleads.2, if_pos (List.contains_iff_mem.mpr hon)]

theorem enter_of_not_mem {a : Assembly} {merged : Document} {path : String} {place : Place}
    (hleads : t.Leads path place) (hoff : place ∉ a.chain) :
    a.enter t merged (.file path) =
      match (Source.path path).load t with
      | .error e => (a.tell (.including path)).give (.error e)
      | .ok included =>
        (((a.tell (.including path)).push place).call (.waiting merged)).call
          (.resolve included) := by
  simp only [enter, if_pos hleads.1, hleads.2, if_neg (mt List.contains_iff_mem.mp hoff)]

/-- Including a target returns, if putting the document of its file together does. -/
theorem target_returns (a : Assembly) (merged : Document) (target : Target)
    (ih : ∀ path place included, t.Leads path place → place ∉ a.chain → ∀ b : Assembly,
      b.chain = place :: a.chain →
      Reaches s t (b.call (.resolve included))
        (b.returned (s.resolveOn t (place :: a.chain) included))) :
    Reaches s t (a.call (.one merged (.target target)))
      (a.returned (s.includeOn t a.chain merged target)) := by
  refine .of_proceed ?_
  show Reaches s t (a.enter t merged target) _
  rcases t.misses_or_leads target with ⟨e, hmisses⟩ | ⟨path, place, rfl, hleads⟩
  · rw [enter_of_misses hmisses, Shelf.includeOn_of_misses hmisses]
    exact ⟨0, by simp [give, returned, Traced.fail]⟩
  · by_cases hon : place ∈ a.chain
    · rw [enter_of_mem hleads hon, Shelf.includeOn_of_mem hleads hon]
      exact ⟨0, by simp [give, returned, Traced.fail]⟩
    · rw [enter_of_not_mem hleads hon, Shelf.includeOn_of_not_mem hleads hon]
      cases (Source.path path).load t with
      | error e => exact ⟨0, by simp [give, tell, returned, Traced.fail, Traced.tell]⟩
      | ok included =>
        -- the place goes onto the chain, and comes off with the answer
        refine .trans (ih path place included hleads hon _ rfl) (.of_resume ?_)
        exact ⟨0, by simp [resume, pop, push, give, tell, returned, Traced.tell, Traced.map]⟩

/-- What including one thing comes to. -/
def outcome (s : Shelf) (t : FileTree) (chain : List Place) (merged : Document) :
    Task → Traced Document
  | .entry entry => Traced.fold (s.includeOn t chain) merged (s.targets t entry)
  | .target target => s.includeOn t chain merged target

theorem entry_returns {chain : List Place} (a : Assembly) (merged : Document) (entry : String)
    (htarget : ∀ (target : Target) (a : Assembly) (merged : Document), a.chain = chain →
      Reaches s t (a.call (.one merged (.target target)))
        (a.returned (outcome s t chain merged (.target target))))
    (hchain : a.chain = chain) :
    Reaches s t (a.call (.one merged (.entry entry)))
      (a.returned (outcome s t chain merged (.entry entry))) := by
  have htargets : ∀ task ∈ (s.targets t entry).map Task.target,
      ∀ (a : Assembly) (merged : Document), a.chain = chain →
      Reaches s t (a.call (.one merged task)) (a.returned (outcome s t chain merged task)) := by
    intro task hmem
    obtain ⟨target, -, rfl⟩ := List.mem_map.mp hmem
    exact htarget target
  have hfold := several_returns htargets { a with answer := none } merged hchain
  rw [Traced.fold_map] at hfold
  exact .of_proceed hfold

/-- **Putting a document together returns what `resolveOn` says.** -/
theorem resolve_returns (chain : List Place) (doc : Document) (a : Assembly)
    (hchain : a.chain = chain) :
    Reaches s t (a.call (.resolve doc)) (a.returned (s.resolveOn t chain doc)) := by
  -- only a file makes the chain longer, so `ih` serves for files and for nothing else
  induction chain, doc using FileTree.chain_induction t generalizing a with
  | step chain doc ih =>
    have htarget : ∀ (target : Target) (a : Assembly) (merged : Document), a.chain = chain →
        Reaches s t (a.call (.one merged (.target target)))
          (a.returned (outcome s t chain merged (.target target))) := by
      intro target a merged ha
      subst ha
      refine target_returns a merged target ?_
      intro path place included hleads hoff b hb
      exact ih path place included hleads hoff b hb
    refine .of_proceed ?_
    rw [Shelf.resolveOn_eq, Shelf.includes]
    simp only [proceed]
    cases hlist : doc.includes with
    | error e => exact ⟨0, by simp [give, returned, Except.map, Traced.fail]⟩
    | ok entries =>
      have hentries : ∀ task ∈ entries.map Task.entry, ∀ (a : Assembly) (merged : Document),
          a.chain = chain →
          Reaches s t (a.call (.one merged task)) (a.returned (outcome s t chain merged task)) := by
        intro task hmem a merged ha
        obtain ⟨entry, -, rfl⟩ := List.mem_map.mp hmem
        exact entry_returns a merged entry htarget ha
      have hfold := several_returns hentries { a with answer := none } doc hchain
      rw [Traced.fold_map] at hfold
      simp only [Except.map, Traced.fold_flatMap]
      exact hfold

/-- **Including one thing returns**, an entry of a list as well as a target. -/
theorem one_returns (a : Assembly) (merged : Document) (task : Task) :
    Reaches s t (a.call (.one merged task)) (a.returned (outcome s t a.chain merged task)) := by
  have htarget : ∀ (target : Target) (b : Assembly) (merged : Document), b.chain = a.chain →
      Reaches s t (b.call (.one merged (.target target)))
        (b.returned (outcome s t a.chain merged (.target target))) := by
    intro target b merged hb
    rw [← hb]
    refine target_returns b merged target ?_
    intro path place included _ _ c hc
    exact resolve_returns (place :: b.chain) included c hc
  cases task with
  | entry entry => exact entry_returns a merged entry htarget rfl
  | target target => exact htarget target a merged rfl

/-! ## The places on the chain -/

@[simp] theorem depth_call (a : Assembly) (c : Call) :
    (a.call c).depth = a.depth + if c.waits then 1 else 0 :=
  List.countP_cons

@[simp] theorem depth_tell (a : Assembly) (e : Event) : (a.tell e).depth = a.depth := rfl

@[simp] theorem depth_push (a : Assembly) (place : Place) : (a.push place).depth = a.depth := rfl

/-- What a move from one moment to the next does to the chain. It leaves it; or it puts
on it the place of a file that was not on it, and goes one file deeper; or it takes the
last place off, and comes back from a file. -/
def Moves (t : FileTree) (a b : Assembly) : Prop :=
  (b.chain = a.chain ∧ b.depth = a.depth) ∨
  (∃ place ∈ t.files, place ∉ a.chain ∧ b.chain = place :: a.chain ∧ b.depth = a.depth + 1) ∨
  (b.chain = a.chain.tail ∧ b.depth + 1 = a.depth)

/-- Only the place of a file that is read is put on the chain. -/
theorem enter_moves (a : Assembly) (merged : Document) (target : Target) :
    Moves t a (a.enter t merged target) := by
  rcases t.misses_or_leads target with ⟨e, hmisses⟩ | ⟨path, place, rfl, hleads⟩
  · rw [enter_of_misses hmisses]
    exact .inl ⟨rfl, rfl⟩
  · by_cases hon : place ∈ a.chain
    · rw [enter_of_mem hleads hon]
      exact .inl ⟨rfl, rfl⟩
    · rw [enter_of_not_mem hleads hon]
      cases (Source.path path).load t with
      | error e => exact .inl ⟨rfl, rfl⟩
      | ok included =>
        refine .inr (.inl ⟨place, hleads.mem_files, hon, rfl, ?_⟩)
        simp [Call.waits]

theorem proceed_moves (a : Assembly) (c : Call) (hc : c.waits = false) :
    Moves t a (proceed s t a c) := by
  cases c with
  | resolve doc =>
    simp only [proceed]
    cases doc.includes with
    | error e => exact .inl ⟨rfl, rfl⟩
    | ok entries => exact .inl ⟨rfl, by simp [Call.waits]⟩
  | one merged task =>
    cases task with
    | entry entry => exact .inl ⟨rfl, by simp [proceed, Call.waits]⟩
    | target target => exact enter_moves a merged target
  | several merged left =>
    cases left with
    | nil => exact .inl ⟨rfl, rfl⟩
    | cons task left => exact .inl ⟨rfl, by simp [proceed, Call.waits]⟩
  | waiting merged => cases hc

/-- **A move does to the chain only what `Moves` says.** -/
theorem step_moves (s : Shelf) (t : FileTree) (a : Assembly) : Moves t a (step s t a) := by
  obtain ⟨chain, calls, answer, events⟩ := a
  cases calls with
  | nil => exact .inl ⟨rfl, rfl⟩
  | cons c calls =>
    cases answer with
    | none =>
      cases hc : c.waits with
      | false =>
        have hmoves := proceed_moves (s := s) (t := t) ⟨chain, calls, none, events⟩ c hc
        have hdepth :
            depth ⟨chain, c :: calls, none, events⟩ = depth ⟨chain, calls, none, events⟩ :=
          List.countP_cons_of_neg (by simp [hc])
        unfold Moves
        rw [hdepth]
        exact hmoves
      | true =>
        cases c with
        | waiting merged => exact .inl ⟨rfl, rfl⟩
        | _ => cases hc
    | some r =>
      cases c with
      | resolve doc => exact .inl ⟨rfl, rfl⟩
      | one merged task => exact .inl ⟨rfl, rfl⟩
      | several merged left => cases r <;> exact .inl ⟨rfl, rfl⟩
      | waiting merged => exact .inr (.inr ⟨rfl, (List.countP_cons_of_pos rfl).symm⟩)

/-- How the chain looks at every moment: no place is on it twice, and above what was on
it from the beginning there is one file for each document that is waited for. -/
structure Nested (t : FileTree) (below : List Place) (a : Assembly) : Prop where
  nodup : a.chain.Nodup
  above : ∃ places, a.chain = places ++ below ∧ (∀ place ∈ places, place ∈ t.files)
    ∧ places.length = a.depth

variable {below : List Place}

theorem nested_init (hbelow : below.Nodup) (doc : Document) : Nested t below (start below doc) :=
  ⟨hbelow, [], rfl, by simp, rfl⟩

theorem nested_step {a : Assembly} (h : Nested t below a) : Nested t below (step s t a) := by
  obtain ⟨hnodup, places, hchain, hfiles, hlength⟩ := h
  rcases step_moves s t a with
    ⟨hsame, hdepth⟩ | ⟨place, hplace, hoff, hpush, hdepth⟩ | ⟨hpop, hdepth⟩
  · exact ⟨by rwa [hsame], places, by rw [hsame, hchain], hfiles, by rw [hlength, hdepth]⟩
  · refine ⟨?_, place :: places, by rw [hpush, hchain, List.cons_append], ?_, ?_⟩
    · rw [hpush]
      exact List.nodup_cons.mpr ⟨hoff, hnodup⟩
    · intro p hp
      rcases List.mem_cons.mp hp with rfl | hp
      · exact hplace
      · exact hfiles p hp
    · rw [List.length_cons, hlength, hdepth]
  · -- something is waited for, so the place taken off is not one of the beginning
    cases places with
    | nil => simp only [List.length_nil] at hlength; omega
    | cons place rest =>
      refine ⟨?_, rest, by rw [hpop, hchain]; rfl, ?_, ?_⟩
      · rw [hpop]
        exact hnodup.tail
      · intro p hp
        exact hfiles p (List.mem_cons_of_mem _ hp)
      · rw [List.length_cons] at hlength
        omega

theorem nested_iterate {a : Assembly} (h : Nested t below a) (n : Nat) :
    Nested t below ((step s t)^[n] a) := by
  induction n with
  | zero => exact h
  | succ n ih =>
    rw [Function.iterate_succ_apply']
    exact nested_step ih

/-- Documents are not nested deeper than there are files: those that are waited for are
read from as many different files. -/
theorem Nested.depth_le {a : Assembly} (h : Nested t below a) :
    a.depth ≤ t.files.dedup.length := by
  obtain ⟨hnodup, places, hchain, hfiles, hlength⟩ := h
  rw [hchain] at hnodup
  rw [← hlength]
  refine List.Nodup.length_le_of_subset (List.Nodup.of_append_left hnodup) ?_
  intro place hplace
  exact List.mem_dedup.mpr (hfiles place hplace)

/-- The chain on which a document is put together: the real place of its origin, if that
is told. -/
def home (t : FileTree) (origin : Option String) : List Place :=
  (origin.bind t.realPlace?).toList

theorem home_nodup (t : FileTree) (origin : Option String) : (home t origin).Nodup := by
  unfold home
  cases origin.bind t.realPlace? with
  | none => exact List.nodup_nil
  | some place => exact List.nodup_singleton place

/-- **Putting a document together always ends.** After finitely many moves there is
nothing left to do, and the answer and the events are those of `Shelf.resolve`. At every
moment before, the places on the chain are distinct, all but that of the origin are those
of files, and there are never more files than the tree has waiting for one another. From
whichever moment a document, a list entry or a target is gone into, all is afterwards as it
was before, but for the answer, be it a document or an error, and the events. -/
theorem resolving_ends (s : Shelf) (t : FileTree) (origin : Option String) (doc : Document) :
    (∃ n, (step s t)^[n] (start (home t origin) doc)
      = ⟨home t origin, [], some (s.resolve t origin doc).result,
          (s.resolve t origin doc).events⟩)
    ∧ (∀ n, Nested t (home t origin) ((step s t)^[n] (start (home t origin) doc))
      ∧ ((step s t)^[n] (start (home t origin) doc)).depth ≤ t.files.dedup.length)
    ∧ ∀ a : Assembly,
      (∀ inner, ∃ n, (step s t)^[n] (a.call (.resolve inner))
        = a.returned (s.resolveOn t a.chain inner))
      ∧ ∀ merged task, ∃ n, (step s t)^[n] (a.call (.one merged task))
        = a.returned (outcome s t a.chain merged task) := by
  refine ⟨?_, ?_, ?_⟩
  · exact resolve_returns (home t origin) doc ⟨home t origin, [], none, []⟩ rfl
  · intro n
    have hinit : Nested t (home t origin) (start (home t origin) doc) :=
      nested_init (home_nodup t origin) doc
    have hnested := nested_iterate (s := s) hinit n
    exact ⟨hnested, hnested.depth_le⟩
  · intro a
    refine ⟨?_, one_returns a⟩
    intro inner
    exact resolve_returns a.chain inner a rfl

end Assembly

end DialogueTree
