import DialogueTree.Proofs.FileTree.Hidden
import Mathlib.Logic.Relation

/-!
# The include graph

Which includes can be resolved is a property of a graph. Its vertices are the root
document and the places of files; an edge leads from a document to every file that
an entry of its list stands for. Resolving succeeds exactly if everything that can be
reached from the root is in order and no cycle can be reached.

The resolver does not see the graph. It sees a chain of places, and takes a place on
the chain for a cycle. Why that is neither too much nor too little is the invariant
`OnWay`: all places on the chain lead to the document that is being put together. A
file that is reached a second time along another branch is off the chain by then, and
a file on the chain closes a cycle, by whatever path it was named.

A root document that was read from an existing path is the vertex of its real place, if
this is told. An include that leads back there is a cycle, and the document of that vertex
is the root document, whatever the file holds by now.

A file whose real place is not told is no vertex. Including it fails, although there is
nothing wrong with the graph, so that every real place is told is a condition of its own.
It is a part of what an entry finds.
-/

namespace DialogueTree

/-- What the include graph of a document depends on. `home` is the real place of the
path from which the root document was read, if there is one and it is told. -/
structure IncludeGraph where
  shelf : Shelf
  tree : FileTree
  home : Option Place
  document : Document

namespace Shelf

/-- An entry finds what it names: a directory that lists its names, in which every name
with the extension is that of a regular file, or else a regular file, with the extension
added to its name if it lacks it. The real places of the files are told. -/
def Finds (s : Shelf) (t : FileTree) (entry : String) : Prop :=
  (t.isDirectory (Path.join s.root entry) = true
    ∧ ∃ listed, t.list (Path.join s.root entry) = .ok listed
      ∧ ∀ name ∈ listed, s.Bears name →
        ∃ place, t.Leads (Path.join (Path.join s.root entry) name) place) ∨
  (t.isDirectory (Path.join s.root entry) = false ∧ s.Bears entry
    ∧ ∃ place, t.Leads (Path.join s.root entry) place) ∨
  (t.isDirectory (Path.join s.root entry) = false ∧ ¬ s.Bears entry
    ∧ ∃ place, t.Leads (Path.join s.root (entry ++ "." ++ s.extension)) place)

variable {s : Shelf} {t : FileTree}

theorem StandsFor.finds_iff {entry : String} {targets : List Target}
    (h : s.StandsFor t entry targets) :
    s.Finds t entry ↔
      ∀ target ∈ targets, ∃ path place, target = .file path ∧ t.Leads path place := by
  unfold Finds
  cases h with
  | directory hdir hlist _ hmem =>
    simp only [List.forall_mem_map, hmem, and_imp]
    simp [hdir, hlist]
  | unlisted hdir hlist =>
    simp [hdir, hlist]
  | file hdir hbears =>
    simp [hdir, hbears]
  | extended hdir hbears =>
    simp [hdir, hbears]

theorem Expands.finds_iff {entries : List String} {targets : List Target}
    (h : s.Expands t entries targets) :
    (∀ entry ∈ entries, s.Finds t entry) ↔
      ∀ target ∈ targets, ∃ path place, target = .file path ∧ t.Leads path place := by
  induction h with
  | nil => simp
  | cons hown _ ih => simp only [List.forall_mem_cons, List.forall_mem_append, ih, hown.finds_iff]

end Shelf

namespace IncludeGraph

open Relation

variable {G : IncludeGraph}

/-- The document of a vertex. That of the root is the root document; that of any other
vertex is what the file at its place holds. -/
inductive DocumentAt (G : IncludeGraph) : Option Place → Document → Prop where
  | root : DocumentAt G G.home G.document
  | file {place : Place} {doc : Document} :
      some place ≠ G.home → G.tree.Holds place doc → DocumentAt G (some place) doc

/-- An edge leads to the place of every file that the document of a vertex includes. -/
def Edge (G : IncludeGraph) (v w : Option Place) : Prop :=
  ∃ doc targets path place, G.DocumentAt v doc ∧ G.shelf.Includes G.tree doc targets
    ∧ .file path ∈ targets ∧ G.tree.Leads path place ∧ w = some place

/-- The vertices that can be reached from the root document. -/
def Reaches (G : IncludeGraph) (v : Option Place) : Prop := ReflTransGen G.Edge G.home v

/-- A vertex is in order: it has a document, the includes of the document are a list of
strings, and each of them finds what it names. -/
def InOrder (G : IncludeGraph) (v : Option Place) : Prop :=
  ∃ doc entries, G.DocumentAt v doc ∧ doc.Lists entries
    ∧ ∀ entry ∈ entries, G.shelf.Finds G.tree entry

theorem DocumentAt.unique {v : Option Place} {doc other : Document}
    (h : G.DocumentAt v doc) (h' : G.DocumentAt v other) : doc = other := by
  cases h with
  | root =>
    generalize hv : G.home = v at h'
    cases h' with
    | root => rfl
    | file hne _ => exact absurd hv.symm hne
  | file hne hholds =>
    generalize hv : some _ = v at h'
    cases h' with
    | root => exact absurd hv hne
    | file _ hholds' =>
      cases hv
      exact hholds.unique hholds'

theorem inOrder_iff {v : Option Place} {doc : Document} (hdoc : G.DocumentAt v doc) :
    G.InOrder v ↔ ∃ targets, G.shelf.Includes G.tree doc targets
      ∧ ∀ target ∈ targets, ∃ path place, target = .file path ∧ G.tree.Leads path place := by
  constructor
  · intro h
    obtain ⟨doc', entries, hdoc', hlist, hfinds⟩ := h
    cases hdoc.unique hdoc'
    have htargets : G.shelf.Expands G.tree entries _ := Shelf.expands_iff.mpr rfl
    exact ⟨_, ⟨entries, hlist, htargets⟩, htargets.finds_iff.mp hfinds⟩
  · intro h
    obtain ⟨targets, ⟨entries, hlist, htargets⟩, hleads⟩ := h
    exact ⟨doc, entries, hdoc, hlist, htargets.finds_iff.mpr hleads⟩

/-! ## Success means order -/

/-- The places on a chain hide the root: what is off the chain is the document of a
file. -/
theorem documentAt_of_not_mem {chain : List Place} {place : Place} {doc : Document}
    (hhome : ∀ home, G.home = some home → home ∈ chain) (hoff : place ∉ chain)
    (hholds : G.tree.Holds place doc) : G.DocumentAt (some place) doc := by
  refine .file ?_ hholds
  intro heq
  exact hoff (hhome place heq.symm)

theorem Edge.exists_path {v w : Option Place} {doc : Document} {targets : List Target}
    (h : G.Edge v w) (hdoc : G.DocumentAt v doc)
    (htargets : G.shelf.Includes G.tree doc targets) :
    ∃ path place, .file path ∈ targets ∧ G.tree.Leads path place ∧ w = some place := by
  obtain ⟨doc', targets', path, place, hdoc', htargets', hmem, hleads, rfl⟩ := h
  cases hdoc.unique hdoc'
  cases htargets.unique htargets'
  exact ⟨path, place, hmem, hleads, rfl⟩

/-- Vertices with the same document have the same edges. -/
theorem Edge.congr {u v w : Option Place} {doc : Document} (h : G.Edge u w)
    (hdoc : G.DocumentAt u doc) (hdoc' : G.DocumentAt v doc) : G.Edge v w := by
  obtain ⟨other, targets, path, place, hother, htargets, hmem, hleads, rfl⟩ := h
  cases hdoc.unique hother
  exact ⟨doc, targets, path, place, hdoc', htargets, hmem, hleads, rfl⟩

/-- If everything that a document includes could be included, an edge leads off the
chain, to a document that could be put together. -/
theorem Edge.resolves {chain : List Place} {v w : Option Place} {doc result : Document}
    {targets : List Target} (h : G.Edge v w) (hdoc : G.DocumentAt v doc)
    (htargets : G.shelf.Includes G.tree doc targets)
    (hfold : (Traced.fold (G.shelf.includeOn G.tree chain) doc targets).result = .ok result) :
    ∃ path place included whole, w = some place ∧ G.tree.Leads path place ∧ place ∉ chain
      ∧ G.tree.Holds place included
      ∧ (G.shelf.resolveOn G.tree (place :: chain) included).result = .ok whole := by
  obtain ⟨path, place, hmem, hleads, rfl⟩ := h.exists_path hdoc htargets
  obtain ⟨merged, next, hnext⟩ := Traced.exists_ok_of_fold hfold _ hmem
  obtain ⟨_, place', included, whole, heq, hleads', hoff, hholds, hwhole, -⟩ :=
    Shelf.includeOn_eq_ok_iff.mp hnext
  cases heq
  cases hleads.unique hleads'
  exact ⟨path, place, included, whole, rfl, hleads, hoff, hholds, hwhole⟩

/-- **What a document that can be put together reaches.** Every vertex that it reaches
is in order, is the document itself or a file off the chain, and is on no cycle. -/
theorem inOrder_of_resolveOn {chain : List Place} {doc result : Document} {v : Option Place}
    (hhome : ∀ home, G.home = some home → home ∈ chain)
    (hself : ∀ place, v = some place → place ∈ chain) (hdoc : G.DocumentAt v doc)
    (h : (G.shelf.resolveOn G.tree chain doc).result = .ok result) :
    ∀ w, ReflTransGen G.Edge v w →
      G.InOrder w ∧ (w = v ∨ ∃ place, w = some place ∧ place ∉ chain)
        ∧ ¬ TransGen G.Edge w w := by
  induction chain, doc using FileTree.chain_induction G.tree generalizing v result with
  | step chain doc ih =>
    obtain ⟨targets, htargets, hfold⟩ := Shelf.resolveOn_eq_ok_iff.mp h
    -- each edge leads off the chain, to a document that can be put together in turn
    have hedge : ∀ u, G.Edge v u → ∃ place, u = some place ∧ place ∉ chain
        ∧ ∀ w, ReflTransGen G.Edge u w →
          G.InOrder w ∧ (w = u ∨ ∃ p, w = some p ∧ p ∉ place :: chain)
            ∧ ¬ TransGen G.Edge w w := by
      intro u hu
      obtain ⟨path, place, included, whole, rfl, hleads, hoff, hholds, hwhole⟩ :=
        hu.resolves hdoc htargets hfold
      refine ⟨place, rfl, hoff, ?_⟩
      refine ih path place included hleads hoff ?_ ?_ ?_ hwhole
      · intro home hhome'
        exact List.mem_cons_of_mem _ (hhome home hhome')
      · intro p hp
        cases hp
        exact List.mem_cons_self
      · exact documentAt_of_not_mem hhome hoff hholds
    intro w hw
    rcases hw.cases_head with rfl | ⟨u, hu, huw⟩
    · refine ⟨(inOrder_iff hdoc).mpr ⟨targets, htargets, ?_⟩, .inl rfl, ?_⟩
      · intro target hmem
        obtain ⟨merged, next, hnext⟩ := Traced.exists_ok_of_fold hfold target hmem
        obtain ⟨path, place, _, _, htarget, hleads, -⟩ := Shelf.includeOn_eq_ok_iff.mp hnext
        exact ⟨path, place, htarget, hleads⟩
      · -- a way back would lead from a vertex off the chain to one on it
        intro hcycle
        obtain ⟨u, hu, huv⟩ := TransGen.head'_iff.mp hcycle
        obtain ⟨place, rfl, hoff, hbelow⟩ := hedge u hu
        rcases (hbelow _ huv).2.1 with hv | ⟨p, hv, hp⟩
        · exact hoff (hself place hv)
        · exact hp (List.mem_cons_of_mem _ (hself p hv))
    · obtain ⟨place, rfl, hoff, hbelow⟩ := hedge u hu
      obtain ⟨horder, hfresh, hcycle⟩ := hbelow w huw
      refine ⟨horder, .inr ?_, hcycle⟩
      rcases hfresh with rfl | ⟨p, rfl, hp⟩
      · exact ⟨place, rfl, hoff⟩
      · exact ⟨p, rfl, fun hmem => hp (List.mem_cons_of_mem _ hmem)⟩

/-! ## Failure means a defect -/

/-- **The invariant of the chain.** The document that is being put together can be
reached, the place of the root is on the chain, and every place on the chain leads to
the document. -/
structure OnWay (G : IncludeGraph) (chain : List Place) (v : Option Place) : Prop where
  reaches : G.Reaches v
  home : ∀ place, G.home = some place → place ∈ chain
  leads : ∀ place ∈ chain, ReflTransGen G.Edge (some place) v

theorem onWay_init : G.OnWay G.home.toList G.home where
  reaches := .refl
  home := by
    intro place h
    simp [h]
  leads := by
    intro place hmem
    rw [Option.mem_toList] at hmem
    rw [show G.home = some place from hmem]

theorem OnWay.push {chain : List Place} {v : Option Place} {place : Place}
    (h : G.OnWay chain v) (hedge : G.Edge v (some place)) :
    G.OnWay (place :: chain) (some place) where
  reaches := h.reaches.tail hedge
  home := by
    intro p hp
    exact List.mem_cons_of_mem _ (h.home p hp)
  leads := by
    intro p hmem
    rcases List.mem_cons.mp hmem with rfl | hmem
    · exact .refl
    · exact (h.leads p hmem).tail hedge

theorem OnWay.cycle {chain : List Place} {v : Option Place} {place : Place}
    (h : G.OnWay chain v) (hedge : G.Edge v (some place)) (hmem : place ∈ chain) :
    TransGen G.Edge (some place) (some place) :=
  TransGen.tail' (h.leads place hmem) hedge

end IncludeGraph

namespace Shelf

/-- The include graph of a document that was read from `origin`, if from any path. -/
def graph (s : Shelf) (t : FileTree) (origin : Option String) (doc : Document) : IncludeGraph :=
  ⟨s, t, origin.bind t.realPlace?, doc⟩

end Shelf

end DialogueTree
