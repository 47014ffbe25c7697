import DialogueTree.Proofs.Include.Correspondence
import DialogueTree.Proofs.Include.PreOrder
import Mathlib.Data.List.Forall2

/-!
# Loading never looks at nodes

Of all that is in a document only one value is looked at when it is put together, the one under
the reserved key. The others are carried along, and whether they are nodes is not asked before
a walk comes to them.

So if two trees resemble one another, putting a document together goes the same way in both of
them: it reads the same files in the same order, tells the same, and fails by the same error if
it fails. What it puts together has the same names, and where a name got its value is the same
too: from the last document of the include tree that has the name, which is the same place of
the tree on either side (`Table.LastBindsAt`).
-/

namespace DialogueTree

namespace Shelf

variable {s : Shelf} {t t' : FileTree} {doc doc' : Document}

/-- Documents that resemble one another include the same paths. -/
theorem includes_eq (s : Shelf) (ht : t.Resembles t') (hdoc : doc.Resembles doc') :
    s.includes t doc = s.includes t' doc' := by
  unfold includes Document.includes
  rw [hdoc.list, s.targets_eq ht.corresponds.sameShape]

theorem preserves_resembles (s : Shelf) (ht : t.Resembles t') :
    s.Preserves t t' Document.Resembles where
  refl := .refl
  merge := fun hdoc hother => hdoc.merge hother
  includes := s.includes_eq ht

/-- Putting together goes the same way in trees that resemble one another. -/
theorem resolve_parallel (ht : t.Resembles t') (hdoc : doc.Resembles doc')
    (origin : Option String) :
    (s.resolve t origin doc).Parallel Document.Resembles (s.resolve t' origin doc') :=
  (s.preserves_resembles ht).resolve ht.corresponds hdoc origin

end Shelf

theorem Document.load_parallel {t t' : FileTree} (ht : t.Resembles t') (settings : Settings)
    (path : String) :
    (load settings t (.path path)).Parallel Document.Resembles (load settings t' (.path path)) := by
  have hload := ht.corresponds.load_parallel Document.Resembles.refl path
  unfold load
  generalize (Source.path path).load t = x at hload
  generalize (Source.path path).load t' = y at hload
  cases hload with
  | error e => exact .fail e
  | ok hdoc => exact Shelf.resolve_parallel ht hdoc _

/-! ## The same order of documents -/

/-- The table at a position is the last one of the list to bind `k`, and binds it to `v`. -/
def Table.LastBindsAt {α : Type} (ts : List (Table α)) (i : Nat) (k : String) (v : α) : Prop :=
  ∃ before t behind, ts = before ++ t :: behind ∧ before.length = i ∧ t.get? k = some v
    ∧ ∀ u ∈ behind, u.get? k = none

theorem Table.lastBinds_iff {α : Type} {ts : List (Table α)} {k : String} {v : α} :
    LastBinds ts k v ↔ ∃ i, LastBindsAt ts i k v := by
  constructor
  · intro h
    obtain ⟨before, t, behind, hsplit, hv, hbehind⟩ := h
    exact ⟨before.length, before, t, behind, hsplit, rfl, hv, hbehind⟩
  · intro h
    obtain ⟨i, before, t, behind, hsplit, -, hv, hbehind⟩ := h
    exact ⟨before, t, behind, hsplit, hv, hbehind⟩

namespace Document

variable {docs docs' : List Document} {k : String}

theorem undefined_of_alike (h : List.Forall₂ Resembles docs docs')
    (hnone : ∀ doc ∈ docs, doc.get? k = none) : ∀ doc ∈ docs', doc.get? k = none := by
  induction h with
  | nil => exact hnone
  | @cons doc doc' _ _ hdoc _ ih =>
    rw [List.forall_mem_cons] at hnone ⊢
    have hname := hdoc.names k
    unfold Table.contains at hname
    rw [hnone.1] at hname
    exact ⟨Option.not_isSome_iff_eq_none.mp (by rw [← hname]; exact Bool.false_ne_true),
      ih hnone.2⟩

/-- In lists of documents that resemble one another, the last one with a name is at the same
position. -/
theorem lastBindsAt_of_alike (h : List.Forall₂ Resembles docs docs') {i : Nat} {v : Json}
    (hlast : Table.LastBindsAt docs i k v) : ∃ v', Table.LastBindsAt docs' i k v' := by
  obtain ⟨before, doc, behind, rfl, rfl, hv, hbehind⟩ := hlast
  have hlength : before.length ≤ docs'.length := by
    rw [← h.length_eq, List.length_append]
    exact Nat.le_add_right _ _
  have hrest := List.forall₂_drop before.length h
  rw [List.drop_left, List.forall₂_cons_left_iff] at hrest
  obtain ⟨doc', behind', hdoc, hbehind', hsplit⟩ := hrest
  have hname : (doc'.get? k).isSome = true := by
    rw [← Table.contains, ← hdoc.names k, Table.contains, hv]
    rfl
  obtain ⟨v', hv'⟩ := Option.isSome_iff_exists.mp hname
  refine ⟨v', docs'.take before.length, doc', behind', ?_, List.length_take_of_le hlength, hv',
    undefined_of_alike hbehind' hbehind⟩
  rw [← hsplit, List.take_append_drop]

end Document

/-- Visits of one file in two trees, by one path, where it holds documents that resemble one
another. -/
structure Visit.Resembles (visit other : Visit) : Prop where
  path : visit.path = other.path
  place : visit.place = other.place
  document : visit.document.Resembles other.document

namespace Shelf

variable {s : Shelf} {t t' : FileTree} {doc doc' : Document}

theorem forall₂_documents {visits visits' : List Visit}
    (h : List.Forall₂ Visit.Resembles visits visits') :
    List.Forall₂ Document.Resembles (documents visits) (documents visits') :=
  List.rel_map (fun _ _ hvisit => hvisit.document) h

/-- **The same files are visited in the same order.** -/
theorem Unfolds.exists_alike (ht : t.Resembles t') {targets : List Target} {visits : List Visit}
    (h : s.Unfolds t targets visits) :
    ∃ visits', s.Unfolds t' targets visits' ∧ List.Forall₂ Visit.Resembles visits visits' := by
  induction h with
  | nil => exact ⟨[], .nil, .nil⟩
  | @cons path place included own targets below rest hleads hholds hown _ _ ihbelow ihrest =>
    obtain ⟨included', hholds', hincluded⟩ := ht.corresponds.holds Document.Resembles.refl hholds
    obtain ⟨below', hbelow', halike⟩ := ihbelow
    obtain ⟨rest', hrest', halike'⟩ := ihrest
    have hown' : s.Includes t' included' own := by
      rw [← includes_eq_ok_iff, ← s.includes_eq ht hincluded]
      exact includes_eq_ok_iff.mpr hown
    exact ⟨_, .cons (ht.corresponds.sameShape.leads_iff.mp hleads) hholds' hown' hbelow' hrest',
      .cons ⟨rfl, rfl, hincluded⟩ (List.rel_append halike halike')⟩

theorem PreOrder.exists_alike (ht : t.Resembles t') (hdoc : doc.Resembles doc')
    {visits : List Visit} (h : s.PreOrder t doc visits) :
    ∃ visits', s.PreOrder t' doc' visits' ∧ List.Forall₂ Visit.Resembles visits visits' := by
  obtain ⟨targets, htargets, hunfolds⟩ := h
  obtain ⟨visits', hunfolds', halike⟩ := hunfolds.exists_alike ht
  refine ⟨visits', ⟨targets, ?_, hunfolds'⟩, halike⟩
  rw [← includes_eq_ok_iff, ← s.includes_eq ht hdoc]
  exact includes_eq_ok_iff.mpr htargets

/-- **Loading never looks at nodes.** In two trees that resemble one another, two documents
that resemble one another are put together in the same way: with the same events, and with the
same error if there is one. What is put together has the same names. The value under a name is
that of the last document in merge order to have the name, which is at the same position of
that order in both trees. -/
theorem resolve_oblivious (ht : t.Resembles t') (hdoc : doc.Resembles doc') (s : Shelf)
    (origin : Option String) :
    (s.resolve t origin doc).Parallel Document.Resembles (s.resolve t' origin doc')
      ∧ (∀ result result', (s.resolve t origin doc).result = .ok result →
          (s.resolve t' origin doc').result = .ok result' →
        ∃ visits visits', s.PreOrder t doc visits ∧ s.PreOrder t' doc' visits'
          ∧ List.Forall₂ Visit.Resembles visits visits'
          ∧ ∀ k, result.contains k = true → ∃ i v v',
            result.get? k = some v ∧ Table.LastBindsAt (doc :: documents visits) i k v
              ∧ result'.get? k = some v' ∧ Table.LastBindsAt (doc' :: documents visits') i k v')
      ∧ ∀ settings path, (Document.load settings t (.path path)).Parallel Document.Resembles
        (Document.load settings t' (.path path)) := by
  refine ⟨resolve_parallel ht hdoc origin, ?_, Document.load_parallel ht⟩
  intro result result' hresult hresult'
  obtain ⟨visits, horder, rfl⟩ := preOrder_of_resolveOn hresult
  obtain ⟨visits', horder', rfl⟩ := preOrder_of_resolveOn hresult'
  obtain ⟨others, hothers, halike⟩ := horder.exists_alike ht hdoc
  cases hothers.unique horder'
  refine ⟨visits, visits', horder, horder', halike, ?_⟩
  intro k hk
  obtain ⟨v, hv⟩ := Option.isSome_iff_exists.mp hk
  obtain ⟨i, hlast⟩ := Table.lastBinds_iff.mp (Table.get?_layer_eq_some_iff.mp hv)
  obtain ⟨v', hlast'⟩ := Document.lastBindsAt_of_alike (.cons hdoc (forall₂_documents halike)) hlast
  exact ⟨i, v, v', hv, hlast,
    Table.get?_layer_eq_some_iff.mpr (Table.lastBinds_iff.mpr ⟨i, hlast'⟩), hlast'⟩

/-- A hall that includes a cellar. Both say something about the stair. -/
def manor (stairUp stairDown : Json) : FileTree where
  items :=
    let hall := Json.object [(Reserved.includes, .array [.string "cellar"]), ("stair", stairUp)]
    let cellar := Json.object [("stair", stairDown)]
    [(["hall.json"], .file (Text.encode hall.render)),
      (["cellar.json"], .file (Text.encode cellar.render))]
  base := []
  distinct := by
    show [["hall.json"], ["cellar.json"]].Nodup
    decide
  named := by
    intro e he
    rcases List.mem_cons.mp he with rfl | he
    · rfl
    · rw [List.mem_singleton.mp he]
      rfl

/-- The grounds of the manor, with a garden. -/
def grounds (garden : Json) : Document :=
  .ofList [(Reserved.includes, .array [.string "hall"]), ("garden", garden)]

/-- Whatever is said about the stair, the files of a manor list the same. -/
theorem manor_resembles : (manor (.int 1) (.int 2)).Resembles (manor .null (.bool false)) where
  base := rfl
  locked _ := rfl
  items := by
    intro place
    by_cases hhall : place = ["hall.json"]
    · rw [hhall]
      exact .inr ⟨_, _, ⟨_, _, rfl, rfl, rfl⟩, ⟨_, _, rfl, rfl, rfl⟩, .ofList rfl rfl⟩
    · by_cases hcellar : place = ["cellar.json"]
      · rw [hcellar]
        exact .inr ⟨_, _, ⟨_, _, rfl, rfl, rfl⟩, ⟨_, _, rfl, rfl, rfl⟩, .ofList rfl rfl⟩
      · left
        simp [FileTree.item?, manor, List.lookup_cons, beq_false_of_ne hhall,
          beq_false_of_ne hcellar]

/-- A manor, and one where neither stair nor garden is a node. In both of them the stair is
that of the cellar. -/
theorem resolve_oblivious_manor :
    (manor (.int 1) (.int 2)).Resembles (manor .null (.bool false))
      ∧ (grounds (.int 3)).Resembles (grounds .null)
      ∧ ∃ result result',
        (resolve {} (manor (.int 1) (.int 2)) none (grounds (.int 3))).result = .ok result
        ∧ (resolve {} (manor .null (.bool false)) none (grounds .null)).result = .ok result'
        ∧ result.Resembles result'
        ∧ (result.get? "stair").map Json.render = some "2"
        ∧ (result'.get? "stair").map Json.render = some "false"
        ∧ ∃ visits visits', PreOrder {} (manor (.int 1) (.int 2)) (grounds (.int 3)) visits
          ∧ PreOrder {} (manor .null (.bool false)) (grounds .null) visits'
          ∧ List.Forall₂ Visit.Resembles visits visits'
          ∧ ∀ k, result.contains k = true → ∃ i v v', result.get? k = some v
            ∧ Table.LastBindsAt (grounds (.int 3) :: documents visits) i k v
            ∧ result'.get? k = some v'
            ∧ Table.LastBindsAt (grounds .null :: documents visits') i k v' := by
  have hroots : (grounds (.int 3)).Resembles (grounds .null) := .ofList rfl rfl
  have hstair : (resolve {} (manor (.int 1) (.int 2)) none (grounds (.int 3))).result.toOption.map
      (fun d => (d.get? "stair").map Json.render) = some (some "2") := by
    decide +kernel
  have hstair' : (resolve {} (manor .null (.bool false)) none (grounds .null)).result.toOption.map
      (fun d => (d.get? "stair").map Json.render) = some (some "false") := by
    decide +kernel
  obtain ⟨⟨-, hresult⟩, hvalues, -⟩ := resolve_oblivious manor_resembles hroots {} none
  generalize (resolve {} (manor (.int 1) (.int 2)) none (grounds (.int 3))).result = x
    at hstair hresult hvalues ⊢
  generalize (resolve {} (manor .null (.bool false)) none (grounds .null)).result = y
    at hstair' hresult hvalues ⊢
  cases hresult with
  | error e => cases hstair
  | @ok result result' hresembles =>
    exact ⟨manor_resembles, hroots, result, result', rfl, rfl, hresembles, Option.some.inj hstair,
      Option.some.inj hstair', hvalues result result' rfl rfl⟩

end Shelf

end DialogueTree
