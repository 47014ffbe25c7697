import DialogueTree.Proofs.FileTree.Path
import DialogueTree.Proofs.Include.Correspondence

/-!
# Directories in a list of includes

An entry that names a directory is an abbreviation. It stands for the names in the directory
that bear the extension, in increasing order, and it may as well be written out: as one entry
for each of these names, below the one for the directory. Which order the directory itself
lists its names in does not matter, nor which other names it has.

The written out entries stand for the same paths as the directory does, text for text
(`Opens.flatMap_targets`). So nothing is told apart that depends on paths, not the events and
not the errors. A list that is written out is itself data under the reserved key, though, and is
carried along in what is put together. There the two ways differ (`Document.Relists`).

A name that bears the extension can be that of a directory, or of a link that leads nowhere. It
is no file then, and ends the expansion where it stands.
-/

namespace DialogueTree

/-! ## Documents with another list -/

/-- A list of includes that has some entries between other items, which may be anything. -/
def Json.splice (before : List Json) (entries : List String) (behind : List Json) : Json :=
  .array (before ++ entries.map .string ++ behind)

/-- A list can be read whatever the entries between the other items are, or it fails for one of
the other items. -/
theorem Json.readPaths_splice (before behind : List Json) :
    (∃ fault, ∀ entries, (splice before entries behind).readPaths = .error fault) ∨
    ∃ front back, ∀ entries,
      (splice before entries behind).readPaths = .ok (front ++ entries ++ back) := by
  have hread : ∀ entries, (splice before entries behind).readPaths = (do
      let front ← before.mapM readPath
      let back ← behind.mapM readPath
      return front ++ entries ++ back) := by
    intro entries
    show (before ++ entries.map string ++ behind).mapM readPath = _
    rw [List.mapM_append, List.mapM_append, mapM_readPath_eq_ok_iff.mpr rfl]
    cases before.mapM readPath with
    | error fault => rfl
    | ok front => cases behind.mapM readPath <;> rfl
  cases hfront : before.mapM readPath with
  | error fault => exact .inl ⟨fault, fun entries => by rw [hread, hfront]; rfl⟩
  | ok front =>
    cases hback : behind.mapM readPath with
    | error fault => exact .inl ⟨fault, fun entries => by rw [hread, hfront, hback]; rfl⟩
    | ok back => exact .inr ⟨front, back, fun entries => by rw [hread, hfront, hback]; rfl⟩

/-- Documents that differ in nothing but the list of includes. If they do, the first one has
the one list and the second one the other. -/
structure Document.Relists (list list' : Json) (doc other : Document) : Prop where
  rest : ∀ k, k ≠ Reserved.includes → doc.get? k = other.get? k
  lists : doc.get? Reserved.includes = other.get? Reserved.includes
    ∨ doc.get? Reserved.includes = some list ∧ other.get? Reserved.includes = some list'

namespace Document.Relists

variable {list list' : Json} {doc doc' other other' : Document}

theorem refl (doc : Document) : doc.Relists list list' doc := ⟨fun _ _ => rfl, .inl rfl⟩

theorem merge (h : Relists list list' doc doc') (h' : Relists list list' other other') :
    Relists list list' (doc.merge other) (doc'.merge other') where
  rest := by
    intro k hk
    rw [Table.get?_merge, Table.get?_merge, h.rest k hk, h'.rest k hk]
  lists := by
    rw [Table.get?_merge, Table.get?_merge]
    rcases h'.lists with hlater | ⟨hlater, hlater'⟩
    · rw [hlater]
      cases other'.get? Reserved.includes with
      | some v => exact .inl rfl
      | none => exact h.lists
    · rw [hlater, hlater']
      exact .inr ⟨rfl, rfl⟩

theorem listing (entries entries' : List String) :
    Relists (.splice [] entries []) (.splice [] entries' []) (.listing entries)
      (.listing entries') where
  rest := by
    intro k hk
    simp [Document.listing, Table.get?_ofList, Table.lookup_cons_eq, hk]
  lists := by
    simp only [Json.splice, List.nil_append, List.append_nil]
    exact .inr ⟨rfl, rfl⟩

end Document.Relists

namespace Shelf

variable {s : Shelf} {t t' : FileTree} {d : String} {names entries entries' : List String}
  {doc doc' : Document}

/-! ## The names that a directory stands for -/

/-- An entry that names a directory, without a slash at its end, and the names in the directory
that bear the extension, in increasing order. -/
structure Opens (s : Shelf) (t : FileTree) (d : String) (names : List String) : Prop where
  nonempty : d ≠ ""
  closed : d.toList.getLast? ≠ some '/'
  directory : t.isDirectory (Path.join s.root d) = true
  sorted : names.Pairwise (· < ·)
  listed : ∃ listed, t.list (Path.join s.root d) = .ok listed
    ∧ ∀ name, name ∈ names ↔ name ∈ listed ∧ s.Bears name

theorem opens_namesAmong {listed : List String} (hne : d ≠ "")
    (hclosed : d.toList.getLast? ≠ some '/')
    (hdirectory : t.isDirectory (Path.join s.root d) = true)
    (hlist : t.list (Path.join s.root d) = .ok listed) (hnames : s.namesAmong listed = names) :
    s.Opens t d names := by
  subst hnames
  exact ⟨hne, hclosed, hdirectory, Table.keys_sorted _, listed, hlist, fun _ => mem_namesAmong⟩

/-- The file with a name in a directory. -/
def within (s : Shelf) (d name : String) : Target := .file (Path.join (Path.join s.root d) name)

theorem Opens.targets_eq (h : s.Opens t d names) : s.targets t d = names.map (s.within d) := by
  obtain ⟨listed, hlist, hmem⟩ := h.listed
  exact (standsFor_iff.mp (.directory h.directory hlist h.sorted hmem)).symm

theorem Opens.isName (h : s.Opens t d names) {name : String} (hname : name ∈ names) :
    Path.isName name = true := by
  obtain ⟨listed, hlist, hmem⟩ := h.listed
  exact FileTree.isName_of_mem_list hlist ((hmem name).mp hname).1

theorem Opens.bears (h : s.Opens t d names) {name : String} (hname : name ∈ names) :
    s.Bears name := by
  obtain ⟨listed, -, hmem⟩ := h.listed
  exact ((hmem name).mp hname).2

/-- The entry for a name in a directory. -/
def below (d name : String) : String := d ++ "/" ++ name

theorem Bears.below {name : String} (h : s.Bears name) (d : String) : s.Bears (below d name) := by
  obtain ⟨stem, rfl⟩ := h
  refine ⟨d ++ "/" ++ stem, ?_⟩
  simp only [Shelf.below, String.append_assoc]

theorem Opens.join_below (h : s.Opens t d names) {name : String} (hname : name ∈ names) :
    Path.join s.root (below d name) = Path.join (Path.join s.root d) name := by
  have hclosed := Path.isOpen_eq_false_iff.mpr ⟨h.nonempty, h.closed⟩
  exact (Path.join_join hclosed (Path.isAbsolute_of_isName (h.isName hname)) s.root).symm

/-- **The entry for a name stands for the path that the directory gives it**, if that is not a
directory itself. -/
theorem Opens.targets_below (h : s.Opens t d names) {name : String} (hname : name ∈ names)
    (hflat : t.isDirectory (Path.join (Path.join s.root d) name) = false) :
    s.targets t (below d name) = [s.within d name] := by
  have hbears : s.Bears (below d name) := (h.bears hname).below d
  unfold within
  rw [← h.join_below hname] at hflat ⊢
  exact (standsFor_iff.mp (.file hflat hbears)).symm

/-- **A directory stands for the same paths as its names, written out.** -/
theorem Opens.flatMap_targets (h : s.Opens t d names)
    (hflat : ∀ name ∈ names, t.isDirectory (Path.join (Path.join s.root d) name) = false) :
    (names.map (below d)).flatMap (s.targets t) = s.targets t d := by
  have hown : ∀ name ∈ names, s.targets t (below d name) = [s.within d name] :=
    fun name hname => h.targets_below hname (hflat name hname)
  rw [h.targets_eq, List.flatMap_map, List.flatMap_congr hown, List.map_eq_flatMap]

/-! ## Lists that stand for the same -/

/-- What a document includes, as far as it depends on some entries in its list. -/
theorem includes_splice (s : Shelf) (t : FileTree) (before behind : List Json) :
    (∃ e, ∀ doc entries, doc.get? Reserved.includes = some (.splice before entries behind) →
      s.includes t doc = .error e) ∨
    ∃ front back, ∀ doc entries,
      doc.get? Reserved.includes = some (.splice before entries behind) →
      s.includes t doc = .ok (front ++ entries.flatMap (s.targets t) ++ back) := by
  unfold includes Document.includes
  rcases Json.readPaths_splice before behind with ⟨fault, hfault⟩ | ⟨front, back, hread⟩
  · refine .inl ⟨.malformedNode Reserved.includes fault, fun doc entries hlist => ?_⟩
    rw [hlist]
    dsimp only
    rw [hfault]
    rfl
  · refine .inr ⟨front.flatMap (s.targets t), back.flatMap (s.targets t),
      fun doc entries hlist => ?_⟩
    rw [hlist]
    dsimp only
    rw [hread, ← List.flatMap_append, ← List.flatMap_append]
    rfl

/-- Entries that stand for the same paths may be put in each other's place, in trees of the same
shape. -/
theorem preserves_relists {before behind : List Json} (ht : t.SameShape t')
    (hpaths : entries.flatMap (s.targets t) = entries'.flatMap (s.targets t)) :
    s.Preserves t t'
      (Document.Relists (.splice before entries behind) (.splice before entries' behind)) where
  refl := .refl
  merge := fun hdoc hother => hdoc.merge hother
  includes := by
    intro doc doc' hdoc
    have htargets : s.includes t' doc' = s.includes t doc' := by
      unfold includes
      rw [s.targets_eq ht]
    rw [htargets]
    rcases hdoc.lists with hlist | ⟨hlist, hlist'⟩
    · unfold includes Document.includes
      rw [hlist]
    · rcases s.includes_splice t before behind with ⟨e, he⟩ | ⟨front, back, hincludes⟩
      · rw [he doc entries hlist, he doc' entries' hlist']
      · rw [hincludes doc entries hlist, hincludes doc' entries' hlist', hpaths]

/-! ## Where the expansion ends -/

variable {chain : List Place} {merged : Document}

/-- A name that is not one of a file fails when the names before it have been included. -/
theorem Opens.fold_of_notFile (h : s.Opens t d names) {pre post : List String} {name : String}
    (hsplit : names = pre ++ name :: post)
    (hno : t.isFile (Path.join (Path.join s.root d) name) = false) :
    Traced.fold (s.includeOn t chain) merged (s.targets t d)
      = (Traced.fold (s.includeOn t chain) merged
          (pre.map (s.within d))).bind
        fun _ => .fail (.includeNotFound (Path.join (Path.join s.root d) name)) := by
  have hfail (merged : Document) :
      s.includeOn t chain merged (s.within d name)
        = .fail (.includeNotFound (Path.join (Path.join s.root d) name)) :=
    includeOn_of_misses (.notFound hno)
  rw [h.targets_eq, hsplit, List.map_append, List.map_cons, Traced.fold_append]
  simp only [Traced.fold_cons, hfail, Traced.bind_fail]

/-- **A directory in a list of includes equals its names, written out.** Where an entry that names
a directory is replaced by the names in the directory that bear the extension, in increasing
order and each below the entry, and none of them is a directory itself, a document is put
together in the same way: with the same events, and with the same error if there is one, or
else with the same result but for a list that is this very one. The entry may stand in the
document or in the files of a tree, and the trees may list their directories in any order.

Names without the extension add nothing to what the entry stands for. And a name that bears
the extension and is not one of a file ends the resolution as soon as all before it is
included. -/
theorem resolve_written_out (h : s.Opens t d names) :
    ((∀ name ∈ names, t.isDirectory (Path.join (Path.join s.root d) name) = false) →
        ∀ before behind list list', list = .splice before [d] behind →
        list' = .splice before (names.map (below d)) behind →
        ∀ t' doc doc' origin, t.Corresponds (Document.Relists list list') t' →
        doc.Relists list list' doc' →
        (s.resolve t origin doc).Parallel (Document.Relists list list')
          (s.resolve t' origin doc'))
      ∧ (∀ t' listed listed', t.list (Path.join s.root d) = .ok listed →
        t'.isDirectory (Path.join s.root d) = true →
        t'.list (Path.join s.root d) = .ok listed' →
        (∀ name, s.Bears name → (name ∈ listed' ↔ name ∈ listed)) →
        s.targets t' d = s.targets t d)
      ∧ ∀ chain doc before behind pre name post, doc.Lists (before ++ d :: behind) →
        names = pre ++ name :: post →
        t.isFile (Path.join (Path.join s.root d) name) = false →
        s.resolveOn t chain doc
          = (Traced.fold (s.includeOn t chain) doc (before.flatMap (s.targets t)
              ++ pre.map fun name => .file (Path.join (Path.join s.root d) name))).bind
            fun _ => .fail (.includeNotFound (Path.join (Path.join s.root d) name)) := by
  refine ⟨?_, ?_, ?_⟩
  · intro hflat before behind list list' hlist hlist' t' doc doc' origin ht hdoc
    subst hlist hlist'
    have hpaths : [d].flatMap (s.targets t) = (names.map (below d)).flatMap (s.targets t) := by
      rw [h.flatMap_targets hflat, List.flatMap_singleton]
    exact (preserves_relists ht.sameShape hpaths).resolve ht hdoc origin
  · intro t' listed listed' hlist hdirectory hlist' hsame
    obtain ⟨found, hfound, hmem⟩ := h.listed
    cases hfound.symm.trans hlist
    have hopens' : s.Opens t' d names :=
      ⟨h.nonempty, h.closed, hdirectory, h.sorted, listed', hlist', fun name =>
        (hmem name).trans (and_congr_left fun hbears => (hsame name hbears).symm)⟩
    rw [hopens'.targets_eq, h.targets_eq]
  · intro chain doc before behind pre name post hlists hsplit hno
    have hincludes : s.includes t doc
        = .ok (before.flatMap (s.targets t) ++ s.targets t d ++ behind.flatMap (s.targets t)) := by
      refine includes_eq_ok_iff.mpr ⟨_, hlists, expands_iff.mpr ?_⟩
      rw [List.flatMap_append, List.flatMap_cons, List.append_assoc]
    rw [resolveOn_eq, hincludes]
    dsimp only
    -- what follows the name is not come to
    rw [Traced.fold_append, Traced.fold_append, Traced.fold_append]
    simp only [h.fold_of_notFile hsplit hno, Traced.bind_assoc, Traced.bind_fail]
    rfl

/-- A hall that includes what it is told to, next to a directory of rooms. -/
def wing (entries : List String) : FileTree where
  items :=
    [(["rooms", "tower.json"], .file (Text.encode (Json.object [("tower", .int 1)]).render)),
      (["rooms"], .directory),
      (["rooms", "plan.txt"], .file []),
      (["rooms", "attic.json"], .file (Text.encode (Json.object [("attic", .int 2)]).render)),
      (["hall.json"], .file (Text.encode
        (Json.object [(Reserved.includes, .array (entries.map .string))]).render))]
  base := []
  distinct := by
    show [["rooms", "tower.json"], ["rooms"], ["rooms", "plan.txt"], ["rooms", "attic.json"],
      ["hall.json"]].Nodup
    decide
  named := by
    simp only [List.forall_mem_cons]
    refine ⟨rfl, rfl, rfl, rfl, rfl, nofun⟩

/-- The rooms of the wing, with a door between them that leads nowhere. -/
def ruin : FileTree := (wing []).put ["rooms", "door.json"] (.link "garden.json")

theorem wing_corresponds :
    (wing ["rooms"]).Corresponds
      (Document.Relists (.splice [] ["rooms"] [])
        (.splice [] ["rooms/attic.json", "rooms/tower.json"] []))
      (wing ["rooms/attic.json", "rooms/tower.json"]) where
  base := rfl
  locked _ := rfl
  items := by
    intro place
    by_cases hhall : place = ["hall.json"]
    · rw [hhall]
      exact .inr ⟨.listing _, .listing _, ⟨_, [(Reserved.includes, _)], rfl, rfl, rfl⟩,
        ⟨_, [(Reserved.includes, _)], rfl, rfl, rfl⟩, .listing _ _⟩
    · left
      simp [FileTree.item?, wing, List.lookup_cons, beq_false_of_ne hhall]

/-- A hall with rooms, and one that lists them one by one. The plan of the rooms is not listed
and may be torn up. In the ruin, the attic is included before the door is not found. -/
theorem resolve_written_out_wing :
    ((resolve {} (wing ["rooms"]) none (.listing ["hall"])).Parallel
        (Document.Relists (.splice [] ["rooms"] [])
          (.splice [] ["rooms/attic.json", "rooms/tower.json"] []))
        (resolve {} (wing ["rooms/attic.json", "rooms/tower.json"]) none (.listing ["hall"]))
      ∧ (resolve {} (wing ["rooms"]) none (.listing ["hall"])).result.isOk = true)
      ∧ targets {} ((wing ["rooms"]).erase ["rooms", "plan.txt"]) "rooms"
        = targets {} (wing ["rooms"]) "rooms"
      ∧ resolveOn {} ruin [] (.listing ["rooms"])
        = (Traced.fold (includeOn {} ruin []) (.listing ["rooms"])
            [.file "./rooms/attic.json"]).bind
          fun _ => .fail (.includeNotFound "./rooms/door.json") := by
  have hlist : (wing ["rooms"]).list (Path.join "." "rooms")
      = .ok ["tower.json", "plan.txt", "attic.json"] := by
    decide +kernel
  have hlist' : ruin.list (Path.join "." "rooms")
      = .ok ["door.json", "tower.json", "plan.txt", "attic.json"] := by
    decide +kernel
  have hwing : Opens {} (wing ["rooms"]) "rooms" ["attic.json", "tower.json"] :=
    opens_namesAmong (by decide) (by decide) (by decide +kernel) hlist (by decide +kernel)
  have hruin : Opens {} ruin "rooms" ["attic.json", "door.json", "tower.json"] :=
    opens_namesAmong (by decide) (by decide) (by decide +kernel) hlist' (by decide +kernel)
  obtain ⟨hparallel, hsame, -⟩ := resolve_written_out hwing
  obtain ⟨-, -, hends⟩ := resolve_written_out hruin
  have hflat : ∀ name ∈ ["attic.json", "tower.json"],
      (wing ["rooms"]).isDirectory (Path.join (Path.join "." "rooms") name) = false := by
    decide +kernel
  refine ⟨⟨hparallel hflat [] [] _ _ rfl rfl _ _ _ none wing_corresponds (.refl _),
    by decide +kernel⟩, ?_, ?_⟩
  · refine hsame ((wing ["rooms"]).erase ["rooms", "plan.txt"]) _ ["tower.json", "attic.json"] hlist
      (by decide +kernel) (by decide +kernel) ?_
    intro name hbears
    have hplan : name ≠ "plan.txt" := by
      rintro rfl
      exact absurd (hasExtension_iff.mpr hbears) (by decide +kernel)
    simp [hplan]
  · exact hends [] _ [] [] ["attic.json"] "door.json" ["tower.json"] (.items rfl) rfl
      (by decide +kernel)

end Shelf

end DialogueTree
