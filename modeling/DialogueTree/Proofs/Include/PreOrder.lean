import DialogueTree.Proofs.Include.Resolving

/-!
# The order in which included documents count

Putting a document together recurses bottom-up: what a file includes is merged into
the file before the file is merged into the document that includes it. The result
does not show this. It is what the raw documents of the include tree give when they
are laid over one another in depth-first pre-order, the root document at the bottom:
each key has the value that the last document with the key gives it.

So a nested include wins over the document that includes it, and a file that is
included twice counts at both places.

The order is stated as a relation between targets and visits, without the chain, since
the documents of a tree do not depend on how cycles are found.
-/

namespace DialogueTree

/-- An included file at one place of the include tree: the path by which it was
included, where it is, and its document as it was read. -/
structure Visit where
  path : String
  place : Place
  document : Document

/-- What stands for the file in the list that it was included from. -/
def Visit.target (visit : Visit) : Target := .file visit.path

namespace Shelf

variable {s : Shelf} {t : FileTree}

/-- The visits below a list of targets in depth-first pre-order: a file first, then all
that it includes, then the targets behind it. -/
inductive Unfolds (s : Shelf) (t : FileTree) : List Target → List Visit → Prop where
  | nil : Unfolds s t [] []
  | cons {path : String} {place : Place} {included : Document} {own targets : List Target}
      {below rest : List Visit} :
      t.Leads path place → t.Holds place included → s.Includes t included own →
      Unfolds s t own below → Unfolds s t targets rest →
      Unfolds s t (.file path :: targets) (⟨path, place, included⟩ :: (below ++ rest))

/-- The visits of the include tree of a document, the document itself left out. -/
def PreOrder (s : Shelf) (t : FileTree) (doc : Document) (visits : List Visit) : Prop :=
  ∃ targets, s.Includes t doc targets ∧ s.Unfolds t targets visits

theorem Unfolds.unique {targets : List Target} {visits other : List Visit}
    (h : s.Unfolds t targets visits) (h' : s.Unfolds t targets other) : visits = other := by
  induction h generalizing other with
  | nil =>
    cases h'
    rfl
  | cons hleads hholds hown _ _ ihbelow ihrest =>
    cases h' with
    | cons hleads' hholds' hown' hbelow' hrest' =>
      cases hleads.unique hleads'
      cases hholds.unique hholds'
      cases hown.unique hown'
      rw [ihbelow hbelow', ihrest hrest']

/-- **A document has one include tree.** -/
theorem PreOrder.unique {doc : Document} {visits other : List Visit}
    (h : s.PreOrder t doc visits) (h' : s.PreOrder t doc other) : visits = other := by
  obtain ⟨targets, htargets, hunfolds⟩ := h
  obtain ⟨targets', htargets', hunfolds'⟩ := h'
  cases htargets.unique htargets'
  exact hunfolds.unique hunfolds'

theorem Unfolds.leads {targets : List Target} {visits : List Visit}
    (h : s.Unfolds t targets visits) :
    ∀ visit ∈ visits, t.Leads visit.path visit.place ∧ t.Holds visit.place visit.document := by
  induction h with
  | nil => simp
  | cons hleads hholds _ _ _ ihbelow ihrest =>
    rw [List.forall_mem_cons, List.forall_mem_append]
    exact ⟨⟨hleads, hholds⟩, ihbelow, ihrest⟩

/-- The files of a list are visited in the order of the list. -/
theorem Unfolds.exists_tops {targets : List Target} {visits : List Visit}
    (h : s.Unfolds t targets visits) :
    ∃ tops : List Visit, tops.map Visit.target = targets ∧ tops.Sublist visits := by
  induction h with
  | nil => exact ⟨[], rfl, .slnil⟩
  | cons _ _ _ _ _ _ ihrest =>
    obtain ⟨tops, rfl, hsub⟩ := ihrest
    exact ⟨_ :: tops, rfl, (hsub.trans (List.sublist_append_right _ _)).cons_cons _⟩

/-- **What a document includes is visited right behind it.** -/
theorem Unfolds.exists_below {targets : List Target} {visits before behind : List Visit}
    {visit : Visit} (h : s.Unfolds t targets visits) (hsplit : visits = before ++ visit :: behind) :
    ∃ own below rest, s.Includes t visit.document own ∧ s.Unfolds t own below
      ∧ behind = below ++ rest := by
  induction h generalizing before behind with
  | nil => simp at hsplit
  | @cons path place included own targets below rest _ _ hown hbelow _ ihbelow ihrest =>
    rcases List.cons_eq_append_iff.mp hsplit with ⟨rfl, hhere⟩ | ⟨before', rfl, hsplit'⟩
    · -- the visit is the first one
      cases hhere
      exact ⟨own, below, rest, hown, hbelow, rfl⟩
    · -- it is behind all that is below the first one, or else it is below the first one
      rcases List.append_eq_append_iff.mp hsplit' with ⟨middle, -, hrest⟩ | ⟨middle, hinner, hrest⟩
      · exact ihrest hrest
      · cases middle with
        | nil => exact @ihrest [] _ hrest.symm
        | cons first middle =>
          cases hrest
          obtain ⟨own', below', rest', hown', hbelow', rfl⟩ := ihbelow hinner
          exact ⟨own', below', rest' ++ rest, hown', hbelow', List.append_assoc _ _ _⟩

/-- If no file of an include tree lists anything, the tree is as flat as a list. -/
theorem Unfolds.map_target {targets : List Target} {visits : List Visit}
    (h : s.Unfolds t targets visits)
    (hlistless : ∀ visit ∈ visits, visit.document.get? Reserved.includes = none) :
    visits.map Visit.target = targets := by
  induction h with
  | nil => rfl
  | cons _ _ hown hbelow _ _ ihrest =>
    rw [List.forall_mem_cons, List.forall_mem_append] at hlistless
    cases hown.unique (includes_nil hlistless.1)
    cases hbelow
    rw [List.nil_append, List.map_cons, ihrest hlistless.2.2]
    rfl

/-- The documents that the files of an include tree hold, in the order of the visits. -/
def documents (visits : List Visit) : List Document := visits.map Visit.document

/-- Including files one after the other lays the documents of their visits over what
has been merged so far, if that is so for each document put together on the way. -/
theorem unfolds_of_fold {chain : List Place} {targets : List Target} {merged result : Document}
    (ih : ∀ path place included whole, t.Leads path place → place ∉ chain →
      (s.resolveOn t (place :: chain) included).result = .ok whole →
      ∃ visits, s.PreOrder t included visits ∧ whole = included.layer (documents visits))
    (h : (Traced.fold (s.includeOn t chain) merged targets).result = .ok result) :
    ∃ visits, s.Unfolds t targets visits ∧ result = merged.layer (documents visits) := by
  -- the induction is on the targets; `ih` speaks of what lies below each of them
  induction targets generalizing merged with
  | nil =>
    cases h
    exact ⟨[], .nil, rfl⟩
  | cons target targets ihtargets =>
    rw [Traced.fold_cons, Traced.result_bind_eq_ok_iff] at h
    obtain ⟨next, hnext, hfold⟩ := h
    obtain ⟨path, place, included, whole, rfl, hleads, hoff, hholds, hwhole, rfl⟩ :=
      includeOn_eq_ok_iff.mp hnext
    obtain ⟨below, ⟨own, hown, hbelow⟩, rfl⟩ := ih path place included whole hleads hoff hwhole
    obtain ⟨rest, hrest, rfl⟩ := ihtargets hfold
    refine ⟨_, .cons hleads hholds hown hbelow hrest, ?_⟩
    -- the layers of the included document are laid over the rest one by one
    rw [Table.merge_layer]
    simp only [documents, List.map_cons, List.map_append, Table.layer_cons, Table.layer_append]

/-- **Putting together lays the documents of the include tree over one another.** -/
theorem preOrder_of_resolveOn {chain : List Place} {doc result : Document}
    (h : (s.resolveOn t chain doc).result = .ok result) :
    ∃ visits, s.PreOrder t doc visits ∧ result = doc.layer (documents visits) := by
  induction chain, doc using FileTree.chain_induction t generalizing result with
  | step chain doc ih =>
    obtain ⟨targets, htargets, hfold⟩ := resolveOn_eq_ok_iff.mp h
    have hbelow : ∀ path place included whole, t.Leads path place → place ∉ chain →
        (s.resolveOn t (place :: chain) included).result = .ok whole →
        ∃ visits, s.PreOrder t included visits ∧ whole = included.layer (documents visits) := by
      intro path place included whole hleads hoff hwhole
      exact ih path place included hleads hoff hwhole
    obtain ⟨visits, hunfolds, hresult⟩ := unfolds_of_fold hbelow hfold
    exact ⟨visits, ⟨targets, htargets, hunfolds⟩, hresult⟩

/-- **Documents are merged in pre-order.** If the includes of a document can be
resolved, it has one include tree. A key is in the result if a document of the tree
has it, and its value is the one that the last such document in pre-order gives it. -/
theorem resolve_lastBinds {origin : Option String} {doc result : Document}
    (h : (s.resolve t origin doc).result = .ok result) :
    ∃ visits, s.PreOrder t doc visits
      ∧ (∀ other, s.PreOrder t doc other → other = visits)
      ∧ (∀ k, result.contains k = true ↔ ∃ d ∈ doc :: documents visits, d.contains k = true)
      ∧ ∀ k v, result.get? k = some v ↔ Table.LastBinds (doc :: documents visits) k v := by
  obtain ⟨visits, horder, rfl⟩ := preOrder_of_resolveOn h
  refine ⟨visits, horder, ?_, ?_, ?_⟩
  · intro other hother
    exact hother.unique horder
  · intro k
    exact Table.contains_layer
  · intro k v
    exact Table.get?_layer_eq_some_iff

/-- Two files, the first of which includes the second. Both have an entry `hall`. -/
def twoHalls : FileTree :=
  let inner := Json.object [("hall", .int 2)]
  let outer := Json.object [(Reserved.includes, .array [.string "inner"]), ("hall", .int 1)]
  (FileTree.empty.write ["inner.json"] (Text.encode inner.render)).write ["outer.json"]
    (Text.encode outer.render)

/-- A document and the two files below it are merged. -/
theorem resolve_lastBinds_twoHalls :
    ∃ result, (resolve {} twoHalls none (.listing ["outer"])).result = .ok result
      ∧ ∃ visits, PreOrder {} twoHalls (.listing ["outer"]) visits
        ∧ (∀ other, PreOrder {} twoHalls (.listing ["outer"]) other → other = visits)
        ∧ (∀ k, result.contains k = true ↔
          ∃ d ∈ Document.listing ["outer"] :: documents visits, d.contains k = true)
        ∧ ∀ k v, result.get? k = some v ↔
          Table.LastBinds (Document.listing ["outer"] :: documents visits) k v := by
  have hok : (resolve {} twoHalls none (.listing ["outer"])).result.isOk = true := by
    decide +kernel
  cases hresult : (resolve {} twoHalls none (.listing ["outer"])).result with
  | error e =>
    rw [hresult] at hok
    cases hok
  | ok result => exact ⟨result, rfl, resolve_lastBinds hresult⟩

end Shelf

end DialogueTree
