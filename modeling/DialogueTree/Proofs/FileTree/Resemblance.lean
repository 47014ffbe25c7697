import DialogueTree.Proofs.Include.Resolving

/-!
# Trees that resemble one another

Who looks for included documents sees little of a tree: where its directories, links and files
are, which of them are locked, and of a file whether it holds a document, which names are in the
document, and what the document lists. Trees that agree in that much resemble one another. They
need not agree in what documents have under other names than the reserved one, nor in the order
in which their directories list names.

A path leads to the same place in two trees of the same shape, whatever is in their files
(`follow_eq`, `place?_eq`). So only the very last step of a look, the one that reads a file, has
to be compared. What is compared there is up to the relation between documents; that they
resemble one another is the one that is used for trees which are authored differently.
-/

namespace DialogueTree

/-! ## Documents -/

/-- Documents with the same names and the same list of includes, if they have one. What they
have under other names may be anything. -/
structure Document.Resembles (doc other : Document) : Prop where
  names : ∀ k, doc.contains k = other.contains k
  list : doc.get? Reserved.includes = other.get? Reserved.includes

namespace Document.Resembles

variable {doc doc' other other' : Document}

theorem refl (doc : Document) : doc.Resembles doc := ⟨fun _ => rfl, rfl⟩

theorem symm (h : doc.Resembles other) : other.Resembles doc :=
  ⟨fun k => (h.names k).symm, h.list.symm⟩

/-- Documents that are given by bindings for the same names. -/
theorem ofList {es es' : List (String × Json)} (hnames : es.map Prod.fst = es'.map Prod.fst)
    (hlist : (Table.ofList es).get? Reserved.includes
      = (Table.ofList es').get? Reserved.includes) :
    Document.Resembles (.ofList es) (.ofList es') where
  names := by
    intro k
    rw [Bool.eq_iff_iff, Table.contains_iff_mem_keys, Table.contains_iff_mem_keys,
      Table.mem_keys_ofList, Table.mem_keys_ofList, hnames]
  list := hlist

theorem merge (h : doc.Resembles doc') (h' : other.Resembles other') :
    Document.Resembles (doc.merge other) (doc'.merge other') where
  names := by
    intro k
    have hdoc := h.names k
    have hother := h'.names k
    unfold Table.contains at hdoc hother ⊢
    rw [Table.get?_merge, Table.get?_merge, Option.isSome_or, Option.isSome_or, hdoc, hother]
  list := by rw [Table.get?_merge, Table.get?_merge, h.list, h'.list]

end Document.Resembles

/-- Two attempts with results that are related, or with the same error. -/
inductive Parallel {α β : Type} (R : α → β → Prop) : Except Error α → Except Error β → Prop where
  | ok {a : α} {b : β} : R a b → Parallel R (.ok a) (.ok b)
  | error (e : Error) : Parallel R (.error e) (.error e)

theorem Parallel.refl {α : Type} {R : α → α → Prop} (hR : ∀ a, R a a) (x : Except Error α) :
    Parallel R x x := by
  cases x with
  | ok a => exact .ok (hR a)
  | error e => exact .error e

/-! ## Trees -/

/-- The file at a place has the content of a document, whether or not it can be read. -/
def FileTree.Contains (t : FileTree) (place : Place) (doc : Document) : Prop :=
  ∃ bytes members, t.item? place = some (.file bytes)
    ∧ Json.decode? bytes = some (.object members) ∧ doc = Table.ofList members

/-- **A file holds the document that it contains**, if it can be read. -/
theorem FileTree.holds_iff {t : FileTree} {place : Place} {doc : Document} :
    t.Holds place doc ↔ t.isLocked place = false ∧ t.Contains place doc := by
  unfold Holds Contains
  simp only [content?_eq_some_iff]
  constructor
  · rintro ⟨bytes, members, ⟨hitem, hopen⟩, hdecode⟩
    exact ⟨hopen, bytes, members, hitem, hdecode⟩
  · rintro ⟨hopen, bytes, members, hitem, hdecode⟩
    exact ⟨bytes, members, ⟨hitem, hopen⟩, hdecode⟩

/-- Trees with one working directory, in which the same is locked. What is at a place is identical
in both of them, or it is a file in each of them, and the two contain documents that resemble one
another. -/
structure FileTree.Resembles (t t' : FileTree) : Prop where
  base : t.base = t'.base
  locked : ∀ place, t.isLocked place = t'.isLocked place
  items : ∀ place, t.item? place = t'.item? place
    ∨ ∃ doc doc', t.Contains place doc ∧ t'.Contains place doc' ∧ doc.Resembles doc'

/-- Trees with one working directory that have directories, links and files at the same
places, and locked ones among them. -/
structure FileTree.SameShape (t t' : FileTree) : Prop where
  base : t.base = t'.base
  locked : ∀ place, t.isLocked place = t'.isLocked place
  items : ∀ place, t.item? place = t'.item? place
    ∨ ∃ bytes bytes', t.item? place = some (.file bytes) ∧ t'.item? place = some (.file bytes')

/-- Trees of the same shape where files that are not identical contain related documents. -/
structure FileTree.Corresponds (R : Document → Document → Prop) (t t' : FileTree) : Prop where
  base : t.base = t'.base
  locked : ∀ place, t.isLocked place = t'.isLocked place
  items : ∀ place, t.item? place = t'.item? place
    ∨ ∃ doc doc', t.Contains place doc ∧ t'.Contains place doc' ∧ R doc doc'

theorem FileTree.Resembles.corresponds {t t' : FileTree} (h : t.Resembles t') :
    Corresponds Document.Resembles t t' where
  base := h.base
  locked := h.locked
  items := h.items

/-- A directory has a name if there is something under it. -/
theorem FileTree.mem_namesIn_iff {t : FileTree} {place : Place} {name : String} :
    name ∈ t.namesIn place ↔ (t.item? (place ++ [name])).isSome = true := by
  have hlookup : t.item? (place ++ [name]) = t.items.lookup (place ++ [name]) := by
    unfold item?
    rw [if_neg (by simp)]
  rw [hlookup, List.lookup_isSome_iff]
  unfold namesIn
  constructor
  · intro h
    obtain ⟨⟨entry, item⟩, hentry, hname⟩ := List.mem_filterMap.mp h
    dsimp only at hname
    cases hlast : entry.getLast? with
    | none =>
      rw [hlast] at hname
      cases hname
    | some last =>
      rw [hlast] at hname
      dsimp only at hname
      split at hname
      · next hplace =>
        cases hname
        refine ⟨(entry, item), hentry, ?_⟩
        rw [← hplace, List.dropLast_append_getLast? _ hlast]
        exact beq_self_eq_true _
      · cases hname
  · intro h
    obtain ⟨⟨entry, item⟩, hentry, hplace⟩ := h
    cases eq_of_beq hplace
    refine List.mem_filterMap.mpr ⟨_, hentry, ?_⟩
    simp

/-- What a directory lists is a name. -/
theorem FileTree.isName_of_mem_list {t : FileTree} {path name : String} {names : List String}
    (hlist : t.list path = .ok names) (h : name ∈ names) : Path.isName name = true := by
  obtain ⟨place, -, -, -, rfl⟩ := list_eq_ok_iff.mp hlist
  have hitem := mem_namesIn_iff.mp h
  unfold item? at hitem
  rw [if_neg (by simp), List.lookup_isSome_iff] at hitem
  obtain ⟨entry, hentry, hat⟩ := hitem
  have hall := t.named entry hentry
  rw [← eq_of_beq hat, List.all_eq_true] at hall
  exact hall name (by simp)

namespace FileTree

variable {t t' : FileTree}

namespace SameShape

theorem symm (h : t.SameShape t') : t'.SameShape t where
  base := h.base.symm
  locked place := (h.locked place).symm
  items := by
    intro place
    rcases h.items place with hsame | ⟨bytes, bytes', hitem, hitem'⟩
    · exact .inl hsame.symm
    · exact .inr ⟨bytes', bytes, hitem', hitem⟩

/-! ## The way to a place -/

/-- On the way down it only matters where there are directories and links. -/
theorem descend_eq (h : t.SameShape t') (limit : Limit)
    (jump : Place → String → List String → Except FileFault Place) (here : Place)
    (parts : List String) :
    t.descend limit jump here parts = t'.descend limit jump here parts := by
  induction parts generalizing here with
  | nil => rfl
  | cons part rest ih =>
    rw [descend, descend]
    rcases h.items here with hhere | ⟨bytes, bytes', hhere, hhere'⟩
    · rw [hhere, ih here, ih here.dropLast, ih (here ++ [part])]
      rcases h.items (here ++ [part]) with hnext | ⟨bytes, bytes', hnext, hnext'⟩
      · rw [hnext]
      · rw [hnext, hnext']
    · rw [hhere, hhere']

theorem follow_eq (h : t.SameShape t') (limit : Limit) (n : Nat) :
    t.follow limit n = t'.follow limit n := by
  funext here parts
  induction n generalizing here parts with
  | zero => exact h.descend_eq limit _ here parts
  | succ n ih =>
    have hsame : t.follow limit n = t'.follow limit n :=
      funext fun here => funext fun parts => ih here parts
    rw [follow, follow, hsame]
    exact h.descend_eq limit _ here parts

theorem find_eq (h : t.SameShape t') (limit : Limit) (path : String) :
    t.find limit path = t'.find limit path := by
  unfold find
  rw [h.follow_eq, h.base]

theorem locate_eq (h : t.SameShape t') (path : String) : t.locate path = t'.locate path := by
  unfold locate
  rw [h.find_eq]

theorem place?_eq (h : t.SameShape t') (path : String) : t.place? path = t'.place? path := by
  unfold place?
  rw [h.locate_eq]

theorem canonical_eq (h : t.SameShape t') (path : String) : t.canonical path = t'.canonical path :=
  h.find_eq anyText path

theorem realPlace?_eq (h : t.SameShape t') (path : String) :
    t.realPlace? path = t'.realPlace? path := by
  unfold realPlace?
  rw [h.canonical_eq]

/-! ## What is at the place -/

theorem isDirectory_eq (h : t.SameShape t') (path : String) :
    t.isDirectory path = t'.isDirectory path := by
  unfold isDirectory
  rw [h.place?_eq]
  cases t'.place? path with
  | none => rfl
  | some place =>
    dsimp only
    rcases h.items place with hitem | ⟨bytes, bytes', hitem, hitem'⟩
    · rw [hitem]
    · rw [hitem, hitem']
      rfl

/-- A directory lists the same names in both trees, although maybe in another order, or it does
not list them in either. -/
theorem list_cases (h : t.SameShape t') (path : String) :
    (∃ fault, t.list path = .error fault ∧ t'.list path = .error fault)
      ∨ ∃ names names', t.list path = .ok names ∧ t'.list path = .ok names'
        ∧ ∀ name, name ∈ names ↔ name ∈ names' := by
  unfold list
  rw [h.locate_eq]
  cases t'.locate path with
  | error fault => exact .inl ⟨fault, rfl, rfl⟩
  | ok place =>
    simp only [bind, Except.bind]
    rcases h.items place with hitem | ⟨bytes, bytes', hitem, hitem'⟩
    · rw [hitem, h.locked]
      by_cases hdirectory : t'.item? place = some .directory
      · cases t'.isLocked place with
        | true => exact .inl ⟨.denied, by simp [hdirectory], by simp [hdirectory]⟩
        | false =>
          refine .inr ⟨t.namesIn place, t'.namesIn place, by simp [hdirectory],
            by simp [hdirectory], ?_⟩
          intro name
          rw [mem_namesIn_iff, mem_namesIn_iff]
          rcases h.items (place ++ [name]) with hnext | ⟨bytes, bytes', hnext, hnext'⟩
          · rw [hnext]
          · rw [hnext, hnext']
            exact Iff.rfl
      · exact .inl ⟨.notDirectory, if_pos hdirectory, if_pos hdirectory⟩
    · rw [hitem, hitem']
      exact .inl ⟨.notDirectory, rfl, rfl⟩

theorem isFile_eq (h : t.SameShape t') (path : String) : t.isFile path = t'.isFile path := by
  rw [Bool.eq_iff_iff, isFile_iff, isFile_iff, h.locate_eq]
  refine exists_congr fun place => ?_
  rcases h.items place with hsame | ⟨bytes, bytes', hitem, hitem'⟩
  · rw [hsame]
  · rw [hitem, hitem']
    exact ⟨fun hfile => ⟨bytes', hfile.choose_spec.1, rfl⟩,
      fun hfile => ⟨bytes, hfile.choose_spec.1, rfl⟩⟩

theorem leads_iff (h : t.SameShape t') {path : String} {place : Place} :
    t.Leads path place ↔ t'.Leads path place := by
  unfold Leads
  rw [h.isFile_eq, h.canonical_eq]

theorem misses_iff (h : t.SameShape t') {target : Target} {e : Error} :
    t.Misses target e ↔ t'.Misses target e := by
  have hcongr : ∀ {t t' : FileTree}, t.SameShape t' → t.Misses target e → t'.Misses target e := by
    intro t t' h hmisses
    cases hmisses with
    | unlisted fault => exact .unlisted fault
    | notFound hno => exact .notFound (by rw [← h.isFile_eq, hno])
    | unplaced hfile hfault =>
      exact .unplaced (by rw [← h.isFile_eq, hfile]) (by rw [← h.canonical_eq, hfault])
  exact ⟨hcongr h, hcongr h.symm⟩

end SameShape

/-! ## What is read there -/

namespace Corresponds

variable {R : Document → Document → Prop}

theorem sameShape (h : Corresponds R t t') : t.SameShape t' where
  base := h.base
  locked := h.locked
  items := by
    intro place
    rcases h.items place with hsame | ⟨doc, doc', ⟨bytes, -, hitem, -⟩, ⟨bytes', -, hitem', -⟩, -⟩
    · exact .inl hsame
    · exact .inr ⟨bytes, bytes', hitem, hitem'⟩

theorem holds (h : Corresponds R t t') (hR : ∀ doc, R doc doc) {place : Place} {doc : Document}
    (hholds : t.Holds place doc) : ∃ doc', t'.Holds place doc' ∧ R doc doc' := by
  have hopen : t'.isLocked place = false := by rw [← h.locked, (holds_iff.mp hholds).1]
  rcases h.items place with hsame | ⟨other, doc', hother, hcontains', hdoc⟩
  · refine ⟨doc, holds_iff.mpr ⟨hopen, ?_⟩, hR doc⟩
    unfold Contains
    rw [← hsame]
    exact (holds_iff.mp hholds).2
  · cases hholds.unique (holds_iff.mpr ⟨(holds_iff.mp hholds).1, hother⟩)
    exact ⟨doc', holds_iff.mpr ⟨hopen, hcontains'⟩, hdoc⟩

/-- **What is read through a path is related to what is read in the other tree**, or fails by
the same error. -/
theorem load_parallel (h : Corresponds R t t') (hR : ∀ doc, R doc doc) (path : String) :
    Parallel R ((Source.path path).load t) ((Source.path path).load t') := by
  simp only [Source.load, FileTree.read, h.sameShape.locate_eq]
  cases t'.locate path with
  | error fault => exact .error _
  | ok place =>
    simp only [bind, Except.bind]
    rw [h.locked]
    cases t'.isLocked place with
    | true => exact .error _
    | false =>
      rcases h.items place with hsame | ⟨doc, doc', hcontains, hcontains', hdoc⟩
      · rw [hsame]
        exact .refl hR _
      · obtain ⟨bytes, members, hitem, hdecode, rfl⟩ := hcontains
        obtain ⟨bytes', members', hitem', hdecode', rfl⟩ := hcontains'
        simp only [hitem, hitem', Bool.false_eq_true, if_false, Source.ofBytes, hdecode, hdecode',
          Document.ofJson]
        exact .ok hdoc

end Corresponds

end FileTree

end DialogueTree
