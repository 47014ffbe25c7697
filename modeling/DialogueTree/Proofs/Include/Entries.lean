import DialogueTree.Include
import DialogueTree.Proofs.Include.Layers
import DialogueTree.Proofs.Node.Reading
import Mathlib.Data.List.Sort

/-!
# What the entries of a list of includes stand for

An entry names a directory or one file. Which files it stands for is said here
without the functions that look them up: by the names in the directory, by their
endings, and by the order in which they come. A directory that does not list its names
stands for the fault that this is.

The two agree, for every tree (`standsFor_iff`, `expands_iff`). Statements about
merging can therefore be read without knowing how the lists are computed, and
their proofs go on with the computed lists.
-/

namespace DialogueTree

/-! ## Lists of includes -/

/-- The entries that a document lists. Without a list there are none; anything
else than a list of strings lists nothing at all. -/
inductive Document.Lists (doc : Document) : List String → Prop where
  | nothing : doc.get? Reserved.includes = none → Lists doc []
  | items {entries : List String} :
      doc.get? Reserved.includes = some (.array (entries.map .string)) → Lists doc entries

/-- What is under the reserved key of a document is no list of strings. It is no list at
all, or the fault names the first of its items that is no string. -/
inductive Document.Mislists (doc : Document) : NodeFault → Prop where
  | noList {v : Json} :
      doc.get? Reserved.includes = some v → (∀ items, v ≠ .array items) →
      Mislists doc .includesNotList
  | noPath {entries : List String} {item : Json} {behind : List Json} :
      doc.get? Reserved.includes = some (.array (entries.map .string ++ item :: behind)) →
      (∀ s, item ≠ .string s) → Mislists doc (.includeNotPath item)

/-- A document that does nothing but list entries. -/
def Document.listing (entries : List String) : Document :=
  .ofList [(Reserved.includes, .array (entries.map .string))]

theorem Document.Lists.listing (entries : List String) : (Document.listing entries).Lists entries :=
  .items rfl

theorem Json.readPath_eq_ok_iff {v : Json} {s : String} : v.readPath = .ok s ↔ v = .string s := by
  cases v with
  | string s' => exact ⟨fun h => by cases h; rfl, fun h => by cases h; rfl⟩
  | _ => exact ⟨nofun, nofun⟩

/-- A list of which every item can be read is a list of strings. -/
theorem mapM_readPath_eq_ok_iff {items : List Json} {entries : List String} :
    items.mapM Json.readPath = .ok entries ↔ items = entries.map .string :=
  mapM_eq_ok_iff Json.readPath_eq_ok_iff

/-- **The checked list is the list of strings under the reserved key.** -/
theorem Document.includes_eq_ok_iff {doc : Document} {entries : List String} :
    doc.includes = .ok entries ↔ doc.Lists entries := by
  unfold Document.includes
  constructor
  · intro h
    cases hget : doc.get? Reserved.includes with
    | none =>
      rw [hget] at h
      cases h
      exact .nothing hget
    | some v =>
      rw [hget] at h
      cases v with
      | array items =>
        cases hread : items.mapM Json.readPath with
        | error e => simp [Json.readPaths, hread, Except.mapError] at h
        | ok es =>
          simp only [Json.readPaths, hread, Except.mapError, Except.ok.injEq] at h
          subst h
          exact .items (by rw [hget, mapM_readPath_eq_ok_iff.mp hread])
      | _ => simp [Json.readPaths, Except.mapError] at h
  · intro h
    cases h with
    | nothing hget => rw [hget]
    | items hget =>
      rw [hget]
      simp only [Json.readPaths, mapM_readPath_eq_ok_iff.mpr rfl, Except.mapError]

/-- Reading a list stops at its first item that is no string. -/
theorem mapM_readPath_eq_error_iff {items : List Json} {fault : NodeFault} :
    items.mapM Json.readPath = .error fault ↔
      ∃ (entries : List String) (item : Json) (behind : List Json),
        items = entries.map .string ++ item :: behind ∧ (∀ s, item ≠ .string s)
          ∧ fault = .includeNotPath item := by
  constructor
  · intro h
    induction items with
    | nil => cases h
    | cons first items ih =>
      rw [List.mapM_cons] at h
      cases first with
      | string s =>
        cases hrest : items.mapM Json.readPath with
        | ok rest =>
          rw [hrest] at h
          cases h
        | error e =>
          rw [hrest] at h
          cases h
          obtain ⟨entries, item, behind, rfl, hitem, hfault⟩ := ih hrest
          exact ⟨s :: entries, item, behind, rfl, hitem, hfault⟩
      | _ =>
        cases h
        exact ⟨[], _, items, rfl, nofun, rfl⟩
  · intro h
    obtain ⟨entries, item, behind, rfl, hitem, rfl⟩ := h
    rw [List.mapM_append, mapM_readPath_eq_ok_iff.mpr rfl, List.mapM_cons]
    cases item with
    | string s => exact absurd rfl (hitem s)
    | _ => rfl

/-- **The check fails by what is wrong with the list.** -/
theorem Document.includes_eq_error_iff {doc : Document} {e : Error} :
    doc.includes = .error e ↔
      ∃ fault, doc.Mislists fault ∧ e = .malformedNode Reserved.includes fault := by
  unfold Document.includes
  constructor
  · intro h
    cases hget : doc.get? Reserved.includes with
    | none =>
      rw [hget] at h
      cases h
    | some v =>
      rw [hget] at h
      cases v with
      | array items =>
        cases hread : items.mapM Json.readPath with
        | ok entries => simp [Json.readPaths, hread, Except.mapError] at h
        | error fault =>
          simp only [Json.readPaths, hread, Except.mapError, Except.error.injEq] at h
          obtain ⟨entries, item, behind, rfl, hitem, rfl⟩ := mapM_readPath_eq_error_iff.mp hread
          exact ⟨_, .noPath hget hitem, h.symm⟩
      | _ =>
        cases h
        exact ⟨_, .noList hget nofun, rfl⟩
  · intro h
    obtain ⟨fault, hmislists, rfl⟩ := h
    cases hmislists with
    | @noList v hget hno =>
      rw [hget]
      cases v with
      | array items => exact absurd rfl (hno items)
      | _ => rfl
    | @noPath entries item behind hget hitem =>
      have hread := mapM_readPath_eq_error_iff.mpr ⟨entries, item, behind, rfl, hitem, rfl⟩
      rw [hget]
      simp only [Json.readPaths, hread, Except.mapError]

theorem Document.Mislists.unique {doc : Document} {fault fault' : NodeFault}
    (h : doc.Mislists fault) (h' : doc.Mislists fault') : fault = fault' := by
  have herror := Document.includes_eq_error_iff.mpr ⟨fault, h, rfl⟩
  rw [Document.includes_eq_error_iff.mpr ⟨fault', h', rfl⟩] at herror
  cases herror
  rfl

namespace Shelf

variable {s : Shelf} {t : FileTree}

/-! ## Names with the extension -/

/-- A name bears the extension of the shelf when it ends in a dot and the extension. -/
def Bears (s : Shelf) (name : String) : Prop := ∃ stem, name = stem ++ "." ++ s.extension

theorem hasExtension_iff {name : String} : s.hasExtension name = true ↔ s.Bears name := by
  have hdot : ∀ stem : String,
      (stem ++ "." ++ s.extension).toList = stem.toList ++ ['.'] ++ s.extension.toList := by
    intro stem
    rw [String.toList_append, String.toList_append]
    rfl
  unfold hasExtension
  simp only [Bool.and_eq_true, List.isSuffixOf_iff_suffix, beq_iff_eq]
  constructor
  · intro h
    obtain ⟨⟨front, hfront⟩, hlast⟩ := h
    -- what is left when the extension is cut off is `front`, and it ends in the dot
    have hlen : name.length - s.extension.toList.length = front.length := by
      have hsum := congrArg List.length hfront
      simp only [List.length_append, String.length_toList] at hsum ⊢
      omega
    rw [hlen, ← hfront, List.take_left] at hlast
    obtain ⟨stem, hstem⟩ := List.getLast?_eq_some_iff.mp hlast
    refine ⟨String.ofList stem, String.ext ?_⟩
    rw [hdot, String.toList_ofList, ← hstem, hfront]
  · intro h
    obtain ⟨stem, hname⟩ := h
    have hlist : name.toList = stem.toList ++ ['.'] ++ s.extension.toList := by
      rw [hname, hdot]
    refine ⟨⟨stem.toList ++ ['.'], hlist.symm⟩, ?_⟩
    have hlen : name.length - s.extension.toList.length = (stem.toList ++ ['.']).length := by
      rw [← String.length_toList, hlist, List.length_append]
      omega
    rw [hlen, hlist, List.take_left, List.getLast?_append]
    rfl

theorem mem_namesAmong {names : List String} {name : String} :
    name ∈ s.namesAmong names ↔ name ∈ names ∧ s.Bears name := by
  unfold namesAmong
  rw [Table.mem_keys_ofList, List.map_map]
  simp [hasExtension_iff]

/-! ## Entries -/

/-- What an entry stands for. A directory stands for the files under the names in it that
bear the extension, in increasing order, if it lists its names; any other entry for one
file, whose name gets the extension if it does not bear it. -/
inductive StandsFor (s : Shelf) (t : FileTree) (entry : String) : List Target → Prop where
  | directory {listed names : List String} :
      t.isDirectory (Path.join s.root entry) = true →
      t.list (Path.join s.root entry) = .ok listed →
      names.Pairwise (· < ·) → (∀ name, name ∈ names ↔ name ∈ listed ∧ s.Bears name) →
      StandsFor s t entry (names.map fun name => .file (Path.join (Path.join s.root entry) name))
  | unlisted {fault : FileFault} :
      t.isDirectory (Path.join s.root entry) = true →
      t.list (Path.join s.root entry) = .error fault → StandsFor s t entry [.unlisted fault]
  | file :
      t.isDirectory (Path.join s.root entry) = false → s.Bears entry →
      StandsFor s t entry [.file (Path.join s.root entry)]
  | extended :
      t.isDirectory (Path.join s.root entry) = false → ¬ s.Bears entry →
      StandsFor s t entry [.file (Path.join s.root (entry ++ "." ++ s.extension))]

/-- **The computed targets are what an entry stands for.** -/
theorem standsFor_iff {entry : String} {targets : List Target} :
    s.StandsFor t entry targets ↔ targets = s.targets t entry := by
  unfold Shelf.targets
  constructor
  · intro h
    cases h with
    | @directory listed names hdir hlist hsorted hmem =>
      -- an increasing list is known by its members
      have hnames : names = s.namesAmong listed :=
        hsorted.eq_of_mem_iff (Table.keys_sorted _) fun name => by rw [hmem, mem_namesAmong]
      simp [hdir, hlist, hnames]
    | unlisted hdir hlist => simp [hdir, hlist]
    | file hdir hbears => simp [hdir, hasExtension_iff.mpr hbears]
    | extended hdir hbears => simp [hdir, mt hasExtension_iff.mp hbears]
  · intro h
    subst h
    dsimp only
    split
    · next hdir =>
      split
      · next listed hlist =>
        exact .directory hdir hlist (Table.keys_sorted _) fun _ => mem_namesAmong
      · next fault hlist => exact .unlisted hdir hlist
    · next hdir =>
      split
      · next hext => exact .file (by simpa using hdir) (hasExtension_iff.mp hext)
      · next hext =>
        exact .extended (by simpa using hdir) (mt hasExtension_iff.mpr hext)

/-- What the entries of a list stand for, in the order of the list. -/
inductive Expands (s : Shelf) (t : FileTree) : List String → List Target → Prop where
  | nil : Expands s t [] []
  | cons {entry : String} {entries : List String} {targets rest : List Target} :
      s.StandsFor t entry targets → Expands s t entries rest →
      Expands s t (entry :: entries) (targets ++ rest)

theorem expands_iff {entries : List String} {targets : List Target} :
    s.Expands t entries targets ↔ targets = entries.flatMap (s.targets t) := by
  induction entries generalizing targets with
  | nil =>
    constructor
    · intro h
      cases h
      rfl
    · intro h
      subst h
      exact .nil
  | cons entry entries ih =>
    rw [List.flatMap_cons]
    constructor
    · intro h
      cases h with
      | cons hown hrest => rw [standsFor_iff.mp hown, ih.mp hrest]
    · intro h
      subst h
      exact .cons (standsFor_iff.mpr rfl) (ih.mpr rfl)

/-- What a document includes. -/
def Includes (s : Shelf) (t : FileTree) (doc : Document) (targets : List Target) : Prop :=
  ∃ entries, doc.Lists entries ∧ s.Expands t entries targets

theorem includes_eq_ok_iff {doc : Document} {targets : List Target} :
    s.includes t doc = .ok targets ↔ s.Includes t doc targets := by
  unfold includes Includes
  constructor
  · intro h
    cases hlist : doc.includes with
    | error e =>
      rw [hlist] at h
      cases h
    | ok entries =>
      rw [hlist] at h
      cases h
      exact ⟨entries, Document.includes_eq_ok_iff.mp hlist, expands_iff.mpr rfl⟩
  · intro h
    obtain ⟨entries, hlist, htargets⟩ := h
    rw [Document.includes_eq_ok_iff.mpr hlist, expands_iff.mp htargets]
    rfl

theorem Includes.unique {doc : Document} {targets other : List Target}
    (h : s.Includes t doc targets) (h' : s.Includes t doc other) : targets = other := by
  rw [← includes_eq_ok_iff] at h h'
  rw [h] at h'
  exact Except.ok.inj h'

/-- What a document includes is a matter of its list alone. -/
theorem Includes.congr {doc other : Document} {targets : List Target}
    (hlist : doc.get? Reserved.includes = other.get? Reserved.includes)
    (h : s.Includes t doc targets) : s.Includes t other targets := by
  rw [← includes_eq_ok_iff] at h ⊢
  unfold includes Document.includes at h ⊢
  rwa [← hlist]

theorem includes_nil {doc : Document} (h : doc.get? Reserved.includes = none) :
    s.Includes t doc [] :=
  ⟨[], .nothing h, .nil⟩

/-- Nothing is included if the list cannot be read. -/
theorem includes_eq_error_iff {doc : Document} {e : Error} :
    s.includes t doc = .error e ↔
      ∃ fault, doc.Mislists fault ∧ e = .malformedNode Reserved.includes fault := by
  rw [← Document.includes_eq_error_iff]
  unfold includes
  cases doc.includes <;> simp [Except.map]

end Shelf

end DialogueTree
