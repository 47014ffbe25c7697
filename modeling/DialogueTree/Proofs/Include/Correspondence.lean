import DialogueTree.Proofs.FileTree.Resemblance

/-!
# Two trees side by side

Putting a document together in two trees goes the same way in both of them if the documents in
their files are related in a way that putting together respects: related documents include the
same, and they remain related when related documents are merged into them (`Preserves`).
Then the same files are read in the same order, the same is told, and either the results are
related or both ways end in the same error.

That is proved once for any such relation. What is to be compared decides which relation it is.
-/

namespace DialogueTree

/-! ## Two attempts side by side -/

namespace Traced

/-- Attempts that tell the same events, and then have results that are related or fail by the
same error. -/
structure Parallel {α β : Type} (R : α → β → Prop) (x : Traced α) (y : Traced β) : Prop where
  events : x.events = y.events
  result : DialogueTree.Parallel R x.result y.result

variable {α α' β β' γ : Type} {R : α → α' → Prop} {S : β → β' → Prop}

theorem Parallel.fail (e : Error) : (fail e : Traced α).Parallel R (fail e) := ⟨rfl, .error e⟩

theorem Parallel.tell {x : Traced α} {y : Traced α'} (h : x.Parallel R y) (event : Event) :
    (x.tell event).Parallel R (y.tell event) :=
  ⟨congrArg (event :: ·) h.events, h.result⟩

theorem Parallel.map {x : Traced α} {y : Traced α'} (h : x.Parallel R y) {f : α → β} {g : α' → β'}
    (hfg : ∀ {a b}, R a b → S (f a) (g b)) : (x.map f).Parallel S (y.map g) := by
  obtain ⟨events, result⟩ := x
  obtain ⟨events', result'⟩ := y
  obtain ⟨rfl, hresult⟩ := h
  cases hresult with
  | ok hR => exact ⟨rfl, .ok (hfg hR)⟩
  | error e => exact ⟨rfl, .error e⟩

theorem Parallel.bind {x : Traced α} {y : Traced α'} (h : x.Parallel R y) {f : α → Traced β}
    {g : α' → Traced β'} (hfg : ∀ {a b}, R a b → (f a).Parallel S (g b)) :
    (x.bind f).Parallel S (y.bind g) := by
  obtain ⟨events, result⟩ := x
  obtain ⟨events', result'⟩ := y
  obtain ⟨rfl, hresult⟩ := h
  cases hresult with
  | error e => exact ⟨rfl, .error e⟩
  | ok hR => exact ⟨congrArg (events ++ ·) (hfg hR).events, (hfg hR).result⟩

/-- **What is done part by part is parallel if all its parts are.** -/
theorem Parallel.fold {f : β → γ → Traced β} {g : β' → γ → Traced β'} {parts : List γ}
    (h : ∀ part ∈ parts, ∀ {a b}, S a b → (f a part).Parallel S (g b part)) {a : β} {b : β'}
    (hab : S a b) : (fold f a parts).Parallel S (fold g b parts) := by
  induction parts generalizing a b with
  | nil => exact ⟨rfl, .ok hab⟩
  | cons part parts ih =>
    rw [List.forall_mem_cons] at h
    exact (h.1 hab).bind fun hnext => ih h.2 hnext

end Traced

namespace Shelf

variable {s : Shelf} {t t' : FileTree} {R : Document → Document → Prop} {chain : List Place}
  {doc doc' merged merged' : Document}

/-! ## The same targets -/

/-- The same names have the extension, and come in the same order, wherever they are listed. -/
theorem namesAmong_congr {names names' : List String}
    (h : ∀ name, name ∈ names ↔ name ∈ names') : s.namesAmong names = s.namesAmong names' :=
  (Table.keys_sorted _).eq_of_mem_iff (Table.keys_sorted _) fun name => by
    show name ∈ s.namesAmong names ↔ name ∈ s.namesAmong names'
    rw [mem_namesAmong, mem_namesAmong, h]

/-- Entries stand for the same in trees of the same shape. -/
theorem targets_eq (s : Shelf) (ht : t.SameShape t') : s.targets t = s.targets t' := by
  funext entry
  unfold targets
  dsimp only
  rw [ht.isDirectory_eq]
  rcases ht.list_cases (Path.join s.root entry) with
    ⟨fault, hlist, hlist'⟩ | ⟨names, names', hlist, hlist', hnames⟩
  · rw [hlist, hlist']
  · rw [hlist, hlist']
    dsimp only
    rw [namesAmong_congr hnames]

/-- A relation between documents that putting together in two trees respects. -/
structure Preserves (s : Shelf) (t t' : FileTree) (R : Document → Document → Prop) : Prop where
  refl : ∀ doc, R doc doc
  merge : ∀ {doc doc' other other'}, R doc doc' → R other other' →
    R (doc.merge other) (doc'.merge other')
  includes : ∀ {doc doc'}, R doc doc' → s.includes t doc = s.includes t' doc'

/-! ## The same way through the files -/

/-- One include in two trees, if what lies below it is known. -/
theorem Preserves.includeOn (hR : s.Preserves t t' R) (ht : FileTree.Corresponds R t t')
    (hmerged : R merged merged') (target : Target)
    (hbelow : ∀ path place included included', t.Leads path place → place ∉ chain →
      R included included' →
      (s.resolveOn t (place :: chain) included).Parallel R
        (s.resolveOn t' (place :: chain) included')) :
    (s.includeOn t chain merged target).Parallel R (s.includeOn t' chain merged' target) := by
  rcases t.misses_or_leads target with ⟨e, hmisses⟩ | ⟨path, place, rfl, hleads⟩
  · rw [includeOn_of_misses hmisses, includeOn_of_misses (ht.sameShape.misses_iff.mp hmisses)]
    exact .fail e
  · have hleads' := ht.sameShape.leads_iff.mp hleads
    by_cases hchain : place ∈ chain
    · rw [includeOn_of_mem hleads hchain, includeOn_of_mem hleads' hchain]
      exact .fail _
    · rw [includeOn_of_not_mem hleads hchain, includeOn_of_not_mem hleads' hchain]
      have hload := ht.load_parallel hR.refl path
      generalize (Source.path path).load t = x at hload
      generalize (Source.path path).load t' = y at hload
      cases hload with
      | error e => exact (Traced.Parallel.fail e).tell _
      | ok hincluded =>
        have hwhole := hbelow path place _ _ hleads hchain hincluded
        exact (hwhole.map fun hpart => hR.merge hmerged hpart).tell _

/-- **Putting together goes the same way in both trees.** -/
theorem Preserves.resolveOn (hR : s.Preserves t t' R) (ht : FileTree.Corresponds R t t')
    (hdoc : R doc doc') :
    (s.resolveOn t chain doc).Parallel R (s.resolveOn t' chain doc') := by
  induction chain, doc using FileTree.chain_induction t generalizing doc' with
  | step chain doc ih =>
    rw [resolveOn_eq, resolveOn_eq, hR.includes hdoc]
    cases s.includes t' doc' with
    | error e => exact .fail e
    | ok targets =>
      refine Traced.Parallel.fold ?_ hdoc
      intro target _ merged merged' hmerged
      refine hR.includeOn ht hmerged target ?_
      intro path place included included' hleads hoff hincluded
      exact ih path place included hleads hoff hincluded

theorem Preserves.resolve (hR : s.Preserves t t' R) (ht : FileTree.Corresponds R t t')
    (hdoc : R doc doc') (origin : Option String) :
    (s.resolve t origin doc).Parallel R (s.resolve t' origin doc') := by
  have horigin : t.realPlace? = t'.realPlace? := funext ht.sameShape.realPlace?_eq
  unfold Shelf.resolve
  rw [horigin]
  exact hR.resolveOn ht hdoc

end Shelf

end DialogueTree
