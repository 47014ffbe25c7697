import DialogueTree.Include
import DialogueTree.Proofs.Include.Entries

/-!
# One include at a time

`Shelf.resolveOn` puts a document together in one recursion over the tree of files
that it includes. Everything that is proved about it needs to know what a single
include does, and nothing else. That is said here once: `includeOn` is the body of
the recursion under a name of its own, and `includeOn_eq_ok_iff` and
`includeOn_eq_error_iff` say when it succeeds, with what, and when it fails.

What a file holds is a matter of its place, not of the path that led there. Only
the error of a file that cannot be read names the path.
-/

namespace DialogueTree

/-- A document is read from the bytes that decode to its object. -/
theorem Source.ofBytes_eq_ok_iff {bytes : Bytes} {path : Option String} {doc : Document} :
    ofBytes bytes path = .ok doc ↔
      ∃ members, Json.decode? bytes = some (.object members) ∧ doc = Table.ofList members := by
  unfold ofBytes
  cases Json.decode? bytes with
  | none => simp
  | some v => cases v <;> simp [Document.ofJson, eq_comm]

namespace FileTree

variable {t : FileTree} {limit : Limit} {path : String} {place : Place} {target : Target}
  {doc : Document}

/-- A path leads to a regular file, and this is its real place, which is told. -/
def Leads (t : FileTree) (path : String) (place : Place) : Prop :=
  t.isFile path = true ∧ t.canonical path = .ok place

/-- Why a target leads nowhere: its directory is not listed; or there is no regular file; or its
real place is not told. -/
inductive Misses (t : FileTree) : Target → Error → Prop where
  | unlisted (fault : FileFault) : Misses t (.unlisted fault) (.refused fault)
  | notFound {path : String} : t.isFile path = false → Misses t (.file path) (.includeNotFound path)
  | unplaced {path : String} {fault : FileFault} :
      t.isFile path = true → t.canonical path = .error fault →
      Misses t (.file path) (.refused fault)

/-- What the file at a place contains, if it can be read. -/
def content? (t : FileTree) (place : Place) : Option Bytes :=
  match t.item? place with
  | some (.file bytes) => if t.isLocked place then none else some bytes
  | _ => none

/-- The file at a place can be read and decodes to an object, which is the document. -/
def Holds (t : FileTree) (place : Place) (doc : Document) : Prop :=
  ∃ bytes members, t.content? place = some bytes
    ∧ Json.decode? bytes = some (.object members) ∧ doc = Table.ofList members

theorem find_eq (hzero : '\x00' ∉ path.toList) (hne : path ≠ "") :
    t.find limit path
      = t.follow limit Path.linkLimit (startOf t.base path) (Path.parts path) := by
  simp [find, hzero, hne]

theorem find_eq_ok_iff :
    t.find limit path = .ok place ↔ '\x00' ∉ path.toList ∧ path ≠ ""
      ∧ t.follow limit Path.linkLimit (startOf t.base path) (Path.parts path) = .ok place := by
  by_cases hnul : '\x00' ∈ path.toList
  · simp [find, hnul]
  · by_cases hempty : path = ""
    · simp [find, hempty]
    · simp [find_eq hnul hempty, hnul, hempty]

/-- What is found by handing a path over is what it leads to. -/
theorem locate_eq_ok_iff :
    t.locate path = .ok place ↔
      path.utf8ByteSize < Path.lengthLimit ∧ t.find anyDepth path = .ok place := by
  unfold locate
  by_cases hnul : '\x00' ∈ path.toList
  · simp [find_eq_ok_iff, hnul]
  · by_cases hlong : Path.lengthLimit ≤ path.utf8ByteSize
    · simp [hnul, hlong, Nat.not_lt.mpr hlong]
    · simp [hnul, hlong, Nat.not_le.mp hlong]

theorem place?_eq_some_iff : t.place? path = some place ↔ t.locate path = .ok place := by
  unfold place?
  cases t.locate path <;> simp [Except.toOption]

theorem realPlace?_eq_some_iff : t.realPlace? path = some place ↔ t.canonical path = .ok place := by
  unfold realPlace?
  cases t.canonical path <;> simp [Except.toOption]

theorem isDirectory_iff :
    t.isDirectory path = true ↔
      ∃ place, t.locate path = .ok place ∧ t.item? place = some .directory := by
  simp only [← place?_eq_some_iff]
  unfold isDirectory
  cases t.place? path <;> simp

theorem list_eq_ok_iff {names : List String} :
    t.list path = .ok names ↔ ∃ place, t.locate path = .ok place
      ∧ t.item? place = some .directory ∧ t.isLocked place = false ∧ names = t.namesIn place := by
  unfold list
  cases t.locate path with
  | error fault => exact ⟨nofun, nofun⟩
  | ok place =>
    by_cases hdirectory : t.item? place = some .directory
    · cases hlocked : t.isLocked place <;> simp [bind, Except.bind, hdirectory, hlocked]
      exact eq_comm
    · simp [bind, Except.bind, hdirectory]

theorem content?_eq_some_iff {bytes : Bytes} :
    t.content? place = some bytes ↔
      t.item? place = some (.file bytes) ∧ t.isLocked place = false := by
  unfold content?
  cases hitem : t.item? place with
  | none => simp
  | some item => cases item <;> simp [and_comm]

theorem isFile_iff :
    t.isFile path = true ↔
      ∃ place bytes, t.locate path = .ok place ∧ t.item? place = some (.file bytes) := by
  unfold isFile
  simp only [Option.isSome_iff_exists, Prod.exists, file?_eq_some_iff, place?_eq_some_iff]

theorem leads_iff_locate :
    t.Leads path place ↔
      t.locate path = .ok place ∧ (∃ bytes, t.item? place = some (.file bytes))
        ∧ t.canonical path = .ok place := by
  constructor
  · intro h
    obtain ⟨bytes, hfound⟩ := exists_file_of_canonical h.1 h.2
    obtain ⟨hplace, hitem⟩ := file?_eq_some_iff.mp hfound
    exact ⟨place?_eq_some_iff.mp hplace, ⟨bytes, hitem⟩, h.2⟩
  · rintro ⟨hlocate, ⟨bytes, hitem⟩, hreal⟩
    exact ⟨isFile_iff.mpr ⟨place, bytes, hlocate, hitem⟩, hreal⟩

theorem Leads.mem_files (h : t.Leads path place) : place ∈ t.files :=
  mem_files_of_canonical h.1 h.2

theorem Leads.unique {other : Place} (h : t.Leads path place) (h' : t.Leads path other) :
    place = other :=
  Except.ok.inj (h.2.symm.trans h'.2)

/-- **A target leads to a file, or there is a reason why it leads nowhere.** -/
theorem misses_or_leads (t : FileTree) (target : Target) :
    (∃ e, t.Misses target e) ∨ ∃ path place, target = .file path ∧ t.Leads path place := by
  cases target with
  | unlisted fault => exact .inl ⟨_, .unlisted fault⟩
  | file path =>
    cases hfile : t.isFile path with
    | false => exact .inl ⟨_, .notFound hfile⟩
    | true =>
      cases hreal : t.canonical path with
      | error fault => exact .inl ⟨_, .unplaced hfile hreal⟩
      | ok place => exact .inr ⟨path, place, rfl, hfile, hreal⟩

theorem Misses.not_leads {e : Error} (h : t.Misses (.file path) e) (place : Place) :
    ¬ t.Leads path place := by
  rintro ⟨hfile, hreal⟩
  cases h with
  | notFound hno => cases hno.symm.trans hfile
  | unplaced _ hfault => cases hfault.symm.trans hreal

theorem Misses.unique {e e' : Error} (h : t.Misses target e) (h' : t.Misses target e') :
    e = e' := by
  cases h with
  | unlisted fault =>
    cases h'
    rfl
  | notFound hno =>
    cases h' with
    | notFound _ => rfl
    | unplaced hfile _ => cases hno.symm.trans hfile
  | unplaced hfile hfault =>
    cases h' with
    | notFound hno => cases hno.symm.trans hfile
    | unplaced _ hfault' =>
      cases hfault.symm.trans hfault'
      rfl

theorem Holds.unique {other : Document} (h : t.Holds place doc) (h' : t.Holds place other) :
    doc = other := by
  obtain ⟨bytes, members, hcontent, hdecode, rfl⟩ := h
  obtain ⟨bytes', members', hcontent', hdecode', rfl⟩ := h'
  rw [hcontent] at hcontent'
  cases hcontent'
  rw [hdecode] at hdecode'
  cases hdecode'
  rfl

/-- Looking for a file and reading it go through the same place. -/
theorem Leads.read_eq (h : t.Leads path place) :
    ∃ bytes, t.item? place = some (.file bytes)
      ∧ t.read path = if t.isLocked place then .error .denied else .ok bytes := by
  obtain ⟨hlocate, ⟨bytes, hitem⟩, -⟩ := leads_iff_locate.mp h
  refine ⟨bytes, hitem, ?_⟩
  unfold FileTree.read
  simp [hlocate, bind, Except.bind, hitem]

/-- **Reading through a path gives what its place holds.** -/
theorem load_eq_ok_iff (h : t.Leads path place) :
    (Source.path path).load t = .ok doc ↔ t.Holds place doc := by
  obtain ⟨bytes, hitem, hread⟩ := h.read_eq
  simp only [Source.load, hread, Holds, content?, hitem]
  cases t.isLocked place with
  | true => simp
  | false =>
    simp [Source.ofBytes_eq_ok_iff]

/-- The file at a place holds no document, and this is why. A file that cannot be read and a text
that is not JSON are named by the path through which they were come to. -/
inductive Withholds (t : FileTree) (path : String) (place : Place) : LoadFault → Prop where
  | locked : t.isLocked place = true → Withholds t path place (.file path .denied)
  | malformed {bytes : Bytes} :
      t.content? place = some bytes → Json.decode? bytes = none →
      Withholds t path place (.malformed (some path))
  | notObject {bytes : Bytes} {v : Json} :
      t.content? place = some bytes → Json.decode? bytes = some v →
      (∀ members, v ≠ .object members) → Withholds t path place (.notObject v)

/-- **Reading fails by the reason why a file holds no document.** -/
theorem load_eq_error_iff {e : Error} (h : t.Leads path place) :
    (Source.path path).load t = .error e ↔
      ∃ fault, t.Withholds path place fault ∧ e = .load fault := by
  obtain ⟨bytes, hitem, hread⟩ := h.read_eq
  simp only [Source.load, hread]
  cases hlocked : t.isLocked place with
  | true =>
    constructor
    · intro herror
      cases herror
      exact ⟨_, .locked hlocked, rfl⟩
    · rintro ⟨fault, hwithholds, rfl⟩
      cases hwithholds with
      | locked _ => rfl
      | malformed hcontent _ | notObject hcontent _ _ =>
        cases hlocked.symm.trans (content?_eq_some_iff.mp hcontent).2
  | false =>
    have hcontent : t.content? place = some bytes := content?_eq_some_iff.mpr ⟨hitem, hlocked⟩
    simp only [Bool.false_eq_true, if_false, Source.ofBytes]
    constructor
    · intro herror
      split at herror
      · next v hdecode =>
        cases v with
        | object members => cases herror
        | _ =>
          cases herror
          exact ⟨_, .notObject hcontent hdecode nofun, rfl⟩
      · next hdecode =>
        cases herror
        exact ⟨_, .malformed hcontent hdecode, rfl⟩
    · rintro ⟨fault, hwithholds, rfl⟩
      cases hwithholds with
      | locked hlocked' => cases hlocked.symm.trans hlocked'
      | malformed hcontent' hdecode =>
        cases hcontent.symm.trans hcontent'
        rw [hdecode]
      | @notObject _ v hcontent' hdecode hno =>
        cases hcontent.symm.trans hcontent'
        rw [hdecode]
        cases v with
        | object members => exact absurd rfl (hno members)
        | _ => rfl

theorem Withholds.not_holds {fault : LoadFault} (h : t.Withholds path place fault)
    (doc : Document) : ¬ t.Holds place doc := by
  rintro ⟨bytes, members, hcontent, hdecode, -⟩
  cases h with
  | locked hlocked => cases hlocked.symm.trans (content?_eq_some_iff.mp hcontent).2
  | malformed hcontent' hdecode' =>
    cases hcontent.symm.trans hcontent'
    cases hdecode.symm.trans hdecode'
  | notObject hcontent' hdecode' hno =>
    cases hcontent.symm.trans hcontent'
    exact hno members (Option.some.inj (hdecode'.symm.trans hdecode))

theorem Withholds.unique {fault fault' : LoadFault} (hleads : t.Leads path place)
    (h : t.Withholds path place fault) (h' : t.Withholds path place fault') : fault = fault' := by
  have hload := (load_eq_error_iff hleads).mpr ⟨fault, h, rfl⟩
  rw [(load_eq_error_iff hleads).mpr ⟨fault', h', rfl⟩] at hload
  cases hload
  rfl

/-- **Induction along a growing chain.** What holds of a document on a chain may be
assumed of the documents of all files off the chain, each on the chain made longer by
its file. The chain cannot grow for ever, since it takes a file off the rest. -/
@[elab_as_elim]
theorem chain_induction (t : FileTree) {motive : List Place → Document → Prop}
    (step : ∀ chain doc,
      (∀ path place included, t.Leads path place → place ∉ chain →
        motive (place :: chain) included) → motive chain doc)
    (chain : List Place) (doc : Document) : motive chain doc := by
  -- the induction is on the number of files off the chain
  induction hn : (t.offChain chain).length using Nat.strongRecOn generalizing chain doc with
  | ind n ih =>
    refine step chain doc ?_
    intro path place included hleads hoff
    have hlt := length_offChain_cons_lt hleads.mem_files hoff
    exact ih _ (hn ▸ hlt) (place :: chain) included rfl

end FileTree

namespace Shelf

variable {s : Shelf} {t : FileTree} {chain : List Place} {doc merged : Document} {target : Target}

/-- Merges the document of one file, with all that it includes, over what has been
merged so far. -/
def includeOn (s : Shelf) (t : FileTree) (chain : List Place) (merged : Document) :
    Target → Traced Document
  | .unlisted fault => .fail (.refused fault)
  | .file path =>
    if t.isFile path then
      match t.canonical path with
      | .error fault => .fail (.refused fault)
      | .ok place =>
        if chain.contains place then .fail (.includeCycle path)
        else
          .tell (.including path) <|
            match (Source.path path).load t with
            | .error e => .fail e
            | .ok included => (s.resolveOn t (place :: chain) included).map merged.merge
    else .fail (.includeNotFound path)

/-- **A document is put together by including one thing after the other.** -/
theorem resolveOn_eq (s : Shelf) (t : FileTree) (chain : List Place) (doc : Document) :
    s.resolveOn t chain doc =
      match s.includes t doc with
      | .error e => .fail e
      | .ok targets => Traced.fold (s.includeOn t chain) doc targets := by
  rw [resolveOn]
  cases s.includes t doc with
  | error e => rfl
  | ok targets =>
    dsimp only
    congr 1
    funext merged target
    unfold includeOn
    cases target with
    | unlisted fault => rfl
    | file path =>
      dsimp only
      by_cases hfile : t.isFile path = true
      · rw [dif_pos hfile, if_pos hfile]
        cases t.canonical path with
        | error fault => rfl
        | ok place =>
          dsimp only
          by_cases hchain : place ∈ chain
          · exact (dif_pos hchain).trans (if_pos (List.contains_iff_mem.mpr hchain)).symm
          · exact (dif_neg hchain).trans (if_neg (mt List.contains_iff_mem.mp hchain)).symm
      · rw [dif_neg hfile, if_neg hfile]

theorem resolveOn_eq_ok_iff {result : Document} :
    (s.resolveOn t chain doc).result = .ok result ↔
      ∃ targets, s.Includes t doc targets
        ∧ (Traced.fold (s.includeOn t chain) doc targets).result = .ok result := by
  rw [resolveOn_eq]
  cases htargets : s.includes t doc with
  | error e => simp [← includes_eq_ok_iff, htargets]
  | ok targets => simp [← includes_eq_ok_iff, htargets]

/-- A document that lists nothing is put together as it is. -/
theorem resolveOn_of_listless (h : doc.get? Reserved.includes = none) :
    s.resolveOn t chain doc = .ok doc := by
  rw [resolveOn_eq, includes_eq_ok_iff.mpr (includes_nil h)]
  rfl

/-- What leads nowhere fails by the reason for it. -/
theorem includeOn_of_misses {e : Error} (h : t.Misses target e) :
    s.includeOn t chain merged target = .fail e := by
  cases h with
  | unlisted fault => rfl
  | notFound hno => simp only [includeOn, hno, Bool.false_eq_true, if_false]
  | unplaced hfile hfault => simp only [includeOn, hfile, if_true, hfault]

/-- If the first target leads nowhere, nothing is told, and the others are not come to. -/
theorem resolveOn_of_misses {targets : List Target} {e : Error}
    (htargets : s.includes t doc = .ok (target :: targets)) (h : t.Misses target e) :
    s.resolveOn t chain doc = .fail e := by
  rw [resolveOn_eq, htargets]
  dsimp only
  rw [Traced.fold_cons, includeOn_of_misses h, Traced.bind_fail]

/-- A file that is on the chain is a cycle. -/
theorem includeOn_of_mem {path : String} {place : Place} (hleads : t.Leads path place)
    (hon : place ∈ chain) :
    s.includeOn t chain merged (.file path) = .fail (.includeCycle path) := by
  simp only [includeOn, if_pos hleads.1, hleads.2, if_pos (List.contains_iff_mem.mpr hon)]

/-- A file that is off the chain is told of and read. -/
theorem includeOn_of_not_mem {path : String} {place : Place} (hleads : t.Leads path place)
    (hoff : place ∉ chain) :
    s.includeOn t chain merged (.file path) = .tell (.including path)
      (match (Source.path path).load t with
      | .error e => .fail e
      | .ok included => (s.resolveOn t (place :: chain) included).map merged.merge) := by
  simp only [includeOn, if_pos hleads.1, hleads.2, if_neg (mt List.contains_iff_mem.mp hoff)]

/-- A file that is off the chain and holds a document is put together and merged. -/
theorem includeOn_of_holds {path : String} {place : Place} {included : Document}
    (hleads : t.Leads path place) (hoff : place ∉ chain) (hholds : t.Holds place included) :
    s.includeOn t chain merged (.file path) = .tell (.including path)
      ((s.resolveOn t (place :: chain) included).map merged.merge) := by
  rw [includeOn_of_not_mem hleads hoff, (FileTree.load_eq_ok_iff hleads).mpr hholds]

/-- **All that one include can do.** It leads nowhere; or its file is on the chain;
or the file holds no document; or its document is put together and merged. -/
theorem includeOn_cases (s : Shelf) (t : FileTree) (chain : List Place) (merged : Document)
    (target : Target) :
    (∃ e, t.Misses target e ∧ s.includeOn t chain merged target = .fail e) ∨
    (∃ path place, target = .file path ∧ t.Leads path place ∧ place ∈ chain
      ∧ s.includeOn t chain merged target = .fail (.includeCycle path)) ∨
    (∃ path place fault, target = .file path ∧ t.Leads path place ∧ place ∉ chain
      ∧ t.Withholds path place fault
      ∧ s.includeOn t chain merged target = .tell (.including path) (.fail (.load fault))) ∨
    (∃ path place included, target = .file path ∧ t.Leads path place ∧ place ∉ chain
      ∧ t.Holds place included
      ∧ s.includeOn t chain merged target = .tell (.including path)
          ((s.resolveOn t (place :: chain) included).map merged.merge)) := by
  rcases t.misses_or_leads target with ⟨e, hmisses⟩ | ⟨path, place, rfl, hleads⟩
  · exact .inl ⟨e, hmisses, includeOn_of_misses hmisses⟩
  · by_cases hchain : place ∈ chain
    · exact .inr (.inl ⟨path, place, rfl, hleads, hchain, includeOn_of_mem hleads hchain⟩)
    · cases hload : (Source.path path).load t with
      | error e =>
        obtain ⟨fault, hwithholds, rfl⟩ := (FileTree.load_eq_error_iff hleads).mp hload
        refine .inr (.inr (.inl ⟨path, place, fault, rfl, hleads, hchain, hwithholds, ?_⟩))
        rw [includeOn_of_not_mem hleads hchain, hload]
      | ok included =>
        have hholds := (FileTree.load_eq_ok_iff hleads).mp hload
        exact .inr (.inr (.inr ⟨path, place, included, rfl, hleads, hchain, hholds,
          includeOn_of_holds hleads hchain hholds⟩))

/-- **When one include succeeds.** It leads to a file that is not on the chain and holds a
document, which can be put together once the file is on the chain. -/
theorem includeOn_eq_ok_iff {result : Document} :
    (s.includeOn t chain merged target).result = .ok result ↔
      ∃ path place included whole, target = .file path ∧ t.Leads path place ∧ place ∉ chain
        ∧ t.Holds place included
        ∧ (s.resolveOn t (place :: chain) included).result = .ok whole
        ∧ result = merged.merge whole := by
  constructor
  · intro h
    rcases includeOn_cases s t chain merged target with
      ⟨e, -, heq⟩ | ⟨path, place, -, -, -, heq⟩ | ⟨path, place, fault, -, -, -, -, heq⟩ |
        ⟨path, place, included, htarget, hleads, hoff, hholds, heq⟩
    -- the first three give an error
    · rw [heq] at h
      cases h
    · rw [heq] at h
      cases h
    · rw [heq] at h
      cases h
    · rw [heq, Traced.result_tell, Traced.result_map_eq_ok_iff] at h
      obtain ⟨whole, hwhole, hresult⟩ := h
      exact ⟨path, place, included, whole, htarget, hleads, hoff, hholds, hwhole, hresult⟩
  · intro h
    obtain ⟨path, place, included, whole, rfl, hleads, hoff, hholds, hwhole, hresult⟩ := h
    rw [includeOn_of_holds hleads hoff hholds, Traced.result_tell, Traced.result_map_eq_ok_iff]
    exact ⟨whole, hwhole, hresult⟩

end Shelf

end DialogueTree
