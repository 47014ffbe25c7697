import DialogueTree.Proofs.FileTree.Aliases
import DialogueTree.Proofs.Include.Expansion
import DialogueTree.Proofs.Include.Origin

/-!
# How an include is spelt

Many entries name one file: through links, with dots in them, or as an absolute path. A chain
holds places and not paths, and what a file holds is a matter of its place as well. So it does
not matter which of the entries is in a list. What is put together is the same, and so is the
kind of error if there is one. Only a path that an error names may be another one; and, of
course, the list itself may be in what is put together.

There is a limit to that. The real place of a file may be told by one path and hidden by another
one, as that of the bucket in a `well` is, and then only the one entry can be included.

Entries that name one directory are alike in the same way if the same files are found through
both of them (`Alias.targets`). They need not be. A file may be found through the one, and be
refused through the other since there are too many links on the way, or since its path is too
long by then. The room of a `maze` has such entries.
-/

namespace DialogueTree

/-! ## Errors up to their paths -/

/-- Errors of one kind, which may name other paths. -/
inductive Error.Kindred : Error → Error → Prop where
  | akin {e e' : Error} : e.Akin e' → Kindred e e'
  | notFound (path path' : String) : Kindred (.includeNotFound path) (.includeNotFound path')
  | unread (path path' : String) (fault : FileFault) :
      Kindred (.load (.file path fault)) (.load (.file path' fault))

/-- Two attempts with results that are related, or with errors of one kind. -/
inductive Accords {α β : Type} (R : α → β → Prop) : Except Error α → Except Error β → Prop where
  | ok {a : α} {b : β} : R a b → Accords R (.ok a) (.ok b)
  | error {e e' : Error} : e.Kindred e' → Accords R (.error e) (.error e')

theorem Accords.bind {α α' β β' : Type} {R : α → α' → Prop} {S : β → β' → Prop}
    {x : Except Error α} {y : Except Error α'} (h : Accords R x y) {f : α → Except Error β}
    {g : α' → Except Error β'} (hfg : ∀ {a b}, R a b → Accords S (f a) (g b)) :
    Accords S (x.bind f) (y.bind g) := by
  cases h with
  | ok hR => exact hfg hR
  | error he => exact .error he

theorem Accords.refl {α : Type} {R : α → α → Prop} (hR : ∀ a, R a a) (x : Except Error α) :
    Accords R x x := by
  cases x with
  | ok a => exact .ok (hR a)
  | error e => exact .error (.akin (.refl e))

/-- Attempts of which the one ends in a cycle, and so does the other one. -/
theorem Accords.circular_iff {R : Document → Document → Prop} {x y : Except Error Document}
    (h : Accords R x y) : Document.Circular x ↔ Document.Circular y := by
  unfold Document.Circular
  cases h with
  | ok hR => exact ⟨nofun, nofun⟩
  | error he =>
    cases he with
    | akin hakin =>
      cases hakin with
      | refl e => exact Iff.rfl
      | cycle path path' => exact ⟨fun _ => ⟨path', rfl⟩, fun _ => ⟨path, rfl⟩⟩
      | malformed path path' => exact ⟨nofun, nofun⟩
    | notFound path path' => exact ⟨nofun, nofun⟩
    | unread path path' fault => exact ⟨nofun, nofun⟩

/-! ## Paths to the same file -/

/-- Paths that lead to the same file, or to none both of them. If they lead to one, its real place
is told by both of them or by none. -/
structure FileTree.SameFile (t : FileTree) (path path' : String) : Prop where
  isFile : t.isFile path = t.isFile path'
  leads : ∀ place, t.Leads path place ↔ t.Leads path' place

/-- Targets that come to the same. -/
inductive FileTree.SameTarget (t : FileTree) : Target → Target → Prop where
  | unlisted (fault : FileFault) : SameTarget t (.unlisted fault) (.unlisted fault)
  | file {path path' : String} : t.SameFile path path' → SameTarget t (.file path) (.file path')

theorem FileTree.SameTarget.refl (t : FileTree) (target : Target) : t.SameTarget target target := by
  cases target with
  | unlisted fault => exact .unlisted fault
  | file path => exact .file ⟨rfl, fun _ => Iff.rfl⟩

namespace FileTree.SameFile

variable {t : FileTree} {path path' name : String} {place : Place}

/-- Paths that lead to one place are those of the same file, if it is hidden by both of them or by
none. -/
theorem of_place? (hplace : t.place? path = t.place? path')
    (hhidden : t.Hidden path ↔ t.Hidden path') : t.SameFile path path' where
  isFile := by
    unfold FileTree.isFile file?
    rw [hplace]
  leads := by
    have hone : ∀ {path path' : String}, t.place? path = t.place? path' →
        (t.Hidden path' → t.Hidden path) → ∀ place, t.Leads path place → t.Leads path' place := by
      intro path path' hplace hhidden place hleads
      obtain ⟨hlocate, hfile, hreal⟩ := leads_iff_locate.mp hleads
      rw [← place?_eq_some_iff, hplace, place?_eq_some_iff] at hlocate
      refine leads_iff_locate.mpr ⟨hlocate, hfile, (canonical_of_locate hlocate).resolve_right ?_⟩
      intro hlong
      cases (hhidden hlong).symm.trans hreal
    intro place
    exact ⟨hone hplace hhidden.mpr place, hone hplace.symm hhidden.mp place⟩

/-- **A name is that of the same file below both paths to a directory**, unless one of them
refuses or hides what is found through the other one. -/
theorem join (hdirectory : t.isDirectory path = true) (hplace : t.place? path = t.place? path')
    (hname : Path.isName name = true)
    (hthere : t.isFile (Path.join path name) = true → ¬ t.Strained (Path.join path' name))
    (hhere : t.isFile (Path.join path' name) = true → ¬ t.Strained (Path.join path name))
    (hhidden : t.isFile (Path.join path name) = true →
      (t.Hidden (Path.join path name) ↔ t.Hidden (Path.join path' name))) :
    t.SameFile (Path.join path name) (Path.join path' name) := by
  have hdirectory' : t.isDirectory path' = true := by
    rw [← isDirectory_eq_of_place? hplace, hdirectory]
  by_cases hfile : t.isFile (Path.join path name) = true
  · obtain ⟨place, -, hlocate, -⟩ := isFile_iff.mp hfile
    have hlocate' := locate_join hdirectory hplace hname (hthere hfile) hlocate
    refine of_place? ?_ (hhidden hfile)
    rw [place?_eq_some_iff.mpr hlocate, place?_eq_some_iff.mpr hlocate']
  · by_cases hfile' : t.isFile (Path.join path' name) = true
    · obtain ⟨place, bytes, hlocate', hitem⟩ := isFile_iff.mp hfile'
      have hlocate := locate_join hdirectory' hplace.symm hname (hhere hfile') hlocate'
      exact absurd (isFile_iff.mpr ⟨place, bytes, hlocate, hitem⟩) hfile
    · exact ⟨by rw [Bool.not_eq_true] at hfile hfile'; rw [hfile, hfile'],
        fun _ => ⟨fun h => absurd h.1 hfile, fun h => absurd h.1 hfile'⟩⟩

theorem hidden (h : t.SameFile path path') (hfile : t.isFile path = true)
    (hhidden : t.Hidden path) : t.Hidden path' := by
  rw [h.isFile] at hfile
  refine (leads_or_hidden hfile).resolve_left ?_
  rintro ⟨place, hleads⟩
  exact hhidden.not_leads place ((h.leads place).mpr hleads)

/-- **Reading through another path** gives the same document, or fails by the same kind of
error. -/
theorem load (h : t.SameFile path path') (hleads : t.Leads path place) :
    Accords Eq ((Source.path path).load t) ((Source.path path').load t) := by
  obtain ⟨bytes, hitem, hread⟩ := hleads.read_eq
  obtain ⟨bytes', hitem', hread'⟩ := ((h.leads place).mp hleads).read_eq
  cases hitem.symm.trans hitem'
  simp only [Source.load, hread, hread']
  cases t.isLocked place with
  | true => exact .error (.unread path path' .denied)
  | false =>
    simp only [Bool.false_eq_true, if_false, Source.ofBytes]
    cases Json.decode? bytes with
    | none => exact .error (.akin (.malformed _ _))
    | some v => exact .refl (fun _ => rfl) _

end FileTree.SameFile

namespace Shelf

variable {s : Shelf} {t : FileTree} {chain : List Place} {entries entries' : List String}
  {before behind : List Json} {list list' : Json} {doc doc' merged merged' : Document}
  {path path' entry entry' : String}

/-- One include of one of two targets. -/
theorem includeOn_sameTarget {target target' : Target} (h : t.SameTarget target target')
    (hmerged : merged.Relists list list' merged') :
    Accords (Document.Relists list list') (s.includeOn t chain merged target).result
      (s.includeOn t chain merged' target').result := by
  cases h with
  | unlisted fault => exact .error (.akin (.refl _))
  | @file path path' h =>
    cases hfile : t.isFile path with
    | false =>
      have hfile' : t.isFile path' = false := by rw [← h.isFile, hfile]
      rw [includeOn_of_misses (.notFound hfile), includeOn_of_misses (.notFound hfile')]
      exact .error (.notFound path path')
    | true =>
      have hfile' : t.isFile path' = true := by rw [← h.isFile, hfile]
      rcases FileTree.leads_or_hidden hfile with ⟨place, hleads⟩ | hhidden
      · have hleads' := (h.leads place).mp hleads
        by_cases hchain : place ∈ chain
        · rw [includeOn_of_mem hleads hchain, includeOn_of_mem hleads' hchain]
          exact .error (.akin (.cycle path path'))
        · rw [includeOn_of_not_mem hleads hchain, includeOn_of_not_mem hleads' hchain]
          have hload := h.load hleads
          generalize (Source.path path).load t = x at hload
          generalize (Source.path path').load t = y at hload
          cases hload with
          | error he => exact .error he
          | @ok included _ heq =>
            subst heq
            -- below the file, it is forgotten which path led to it
            dsimp only [Traced.result_tell, Traced.result_map]
            cases (s.resolveOn t (place :: chain) included).result with
            | error e => exact .error (.akin (.refl e))
            | ok whole => exact .ok (hmerged.merge (.refl whole))
      · rw [includeOn_of_misses (.unplaced hfile hhidden),
          includeOn_of_misses (.unplaced hfile' (h.hidden hfile hhidden))]
        exact .error (.akin (.refl _))

theorem fold_sameTarget {targets targets' : List Target}
    (h : List.Forall₂ t.SameTarget targets targets') (hmerged : merged.Relists list list' merged') :
    Accords (Document.Relists list list')
      (Traced.fold (s.includeOn t chain) merged targets).result
      (Traced.fold (s.includeOn t chain) merged' targets').result := by
  induction h generalizing merged merged' with
  | nil => exact .ok hmerged
  | cons htarget _ ih =>
    rw [Traced.fold_cons, Traced.fold_cons, Traced.result_bind, Traced.result_bind]
    exact (includeOn_sameTarget htarget hmerged).bind fun hnext => ih hnext

/-- **Entries that stand for the same files** come to the same. -/
theorem resolveOn_sameTarget
    (h : List.Forall₂ t.SameTarget (entries.flatMap (s.targets t))
      (entries'.flatMap (s.targets t)))
    (hdoc : doc.Relists (.splice before entries behind) (.splice before entries' behind) doc') :
    Accords (Document.Relists (.splice before entries behind) (.splice before entries' behind))
      (s.resolveOn t chain doc).result (s.resolveOn t chain doc').result := by
  rcases hdoc.lists with hsame | ⟨hlist, hlist'⟩
  · have heq : doc = doc' := by
      refine Table.ext_get? fun k => ?_
      by_cases hk : k = Reserved.includes
      · rw [hk, hsame]
      · exact hdoc.rest k hk
    subst heq
    exact .refl .refl _
  · rw [resolveOn_eq, resolveOn_eq]
    rcases s.includes_splice t before behind with ⟨e, he⟩ | ⟨front, back, hincludes⟩
    · rw [he doc entries hlist, he doc' entries' hlist']
      exact .error (.akin (.refl e))
    · have hsame : ∀ targets, List.Forall₂ t.SameTarget targets targets :=
        fun targets => List.forall₂_same.mpr fun target _ => .refl t target
      rw [hincludes doc entries hlist, hincludes doc' entries' hlist']
      exact fold_sameTarget (List.rel_append (List.rel_append (hsame front) h) (hsame back)) hdoc

/-! ## Entries for the same files -/

/-- Entries that name one file or one directory. If it is a file, it must not be hidden by only one
of the entries. A file that is found through one of two directories must not be refused through the
other one, for the length of its path or for the number of links on it, and must not be hidden by
only one of its paths. -/
inductive Alias (s : Shelf) (t : FileTree) (entry entry' : String) : Prop where
  | file {path path' : String} :
      s.StandsFor t entry [.file path] → s.StandsFor t entry' [.file path'] →
      t.isFile path = true → t.isFile path' = true → t.place? path = t.place? path' →
      (t.Hidden path ↔ t.Hidden path') → Alias s t entry entry'
  | directory :
      t.isDirectory (Path.join s.root entry) = true →
      t.isDirectory (Path.join s.root entry') = true →
      t.place? (Path.join s.root entry) = t.place? (Path.join s.root entry') →
      (∀ listed, t.list (Path.join s.root entry) = .ok listed → ∀ name ∈ listed, s.Bears name →
        (t.isFile (Path.join (Path.join s.root entry) name) = true →
          ¬ t.Strained (Path.join (Path.join s.root entry') name))
        ∧ (t.isFile (Path.join (Path.join s.root entry') name) = true →
          ¬ t.Strained (Path.join (Path.join s.root entry) name))
        ∧ (t.isFile (Path.join (Path.join s.root entry) name) = true →
          (t.Hidden (Path.join (Path.join s.root entry) name)
            ↔ t.Hidden (Path.join (Path.join s.root entry') name)))) →
      Alias s t entry entry'

/-- **Aliases come to the same targets.** -/
theorem Alias.targets (h : s.Alias t entry entry') :
    List.Forall₂ t.SameTarget (s.targets t entry) (s.targets t entry') := by
  cases h with
  | file hstands hstands' _ _ hplace hhidden =>
    rw [← standsFor_iff.mp hstands, ← standsFor_iff.mp hstands']
    exact .cons (.file (.of_place? hplace hhidden)) .nil
  | directory hdirectory hdirectory' hplace heven =>
    have hlist' := FileTree.list_eq_of_place? hdirectory hplace
    unfold Shelf.targets
    rw [if_pos hdirectory, if_pos hdirectory', ← hlist']
    cases hlist : t.list (Path.join s.root entry) with
    | error fault => exact .cons (.unlisted fault) .nil
    | ok listed =>
      dsimp only
      rw [List.forall₂_map_left_iff, List.forall₂_map_right_iff, List.forall₂_same]
      intro name hname
      obtain ⟨hmem, hbears⟩ := mem_namesAmong.mp hname
      obtain ⟨hthere, hhere, hhidden⟩ := heven listed hlist name hmem hbears
      have hisName := FileTree.isName_of_mem_list hlist hmem
      exact .file (.join hdirectory hplace hisName hthere hhere hhidden)

/-- **The spelling of an include does not matter.** If an entry of a list is replaced by an
alias of it, the document can still be put together or still cannot. If it cannot, the error is
of the same kind; in particular, a cycle stays one. If it can, the results have the same value
under every name but the reserved one, and there they have the same list too unless it is the
one in which the entry was replaced. -/
theorem resolve_respelt (h : s.Alias t entry entry') (before behind : List Json)
    (hdoc : doc.Relists (.splice before [entry] behind) (.splice before [entry'] behind) doc')
    (origin : Option String) :
    Accords (Document.Relists (.splice before [entry] behind) (.splice before [entry'] behind))
        (s.resolve t origin doc).result (s.resolve t origin doc').result
      ∧ (Document.Circular (s.resolve t origin doc).result
        ↔ Document.Circular (s.resolve t origin doc').result) := by
  have htargets : List.Forall₂ t.SameTarget ([entry].flatMap (s.targets t))
      ([entry'].flatMap (s.targets t)) := by
    rw [List.flatMap_singleton, List.flatMap_singleton]
    exact h.targets
  have haccords : Accords _ (s.resolve t origin doc).result (s.resolve t origin doc').result :=
    resolveOn_sameTarget htargets hdoc
  exact ⟨haccords, haccords.circular_iff⟩

/-- A document that includes a file without includes is merged with what the file holds. -/
theorem resolve_leaf {place : Place} {leaf : Document} (hleads : t.Leads path place)
    (hholds : t.Holds place leaf) (hlistless : leaf.get? Reserved.includes = none)
    (hincludes : s.includes t doc = .ok [.file path]) :
    (s.resolve t none doc).result = .ok (doc.merge leaf) := by
  show (s.resolveOn t [] doc).result = .ok (doc.merge leaf)
  rw [resolveOn_eq, hincludes]
  dsimp only
  rw [Traced.fold_cons, includeOn_of_holds hleads List.not_mem_nil hholds,
    resolveOn_of_listless hlistless]
  rfl

/-- A document that includes the file which holds it is entered once and then is a cycle. -/
theorem resolve_self {place : Place} (hleads : t.Leads path place) (hholds : t.Holds place doc)
    (hincludes : s.includes t doc = .ok [.file path]) :
    (s.resolve t none doc).result = .error (.includeCycle path) := by
  have hagain : s.resolveOn t [place] doc = .fail (.includeCycle path) := by
    rw [resolveOn_eq, hincludes]
    dsimp only
    rw [Traced.fold_cons, includeOn_of_mem hleads (List.mem_singleton_self place)]
    rfl
  show (s.resolveOn t [] doc).result = .error (.includeCycle path)
  rw [resolveOn_eq, hincludes]
  dsimp only
  rw [Traced.fold_cons, includeOn_of_holds hleads List.not_mem_nil hholds, hagain]
  rfl

/-- A hall in a directory of rooms that is also called the wing, and an echo that includes itself
and is also called the shout. -/
def gallery : FileTree where
  items :=
    [(["rooms"], .directory),
      (["rooms", "hall.json"], .file (Text.encode (Json.object [("hall", .int 1)]).render)),
      (["wing"], .link "rooms"),
      (["echo.json"], .file (Text.encode
        (Json.object [(Reserved.includes, .array [.string "echo"])]).render)),
      (["shout.json"], .link "./rooms/../echo.json")]
  base := []
  distinct := by decide
  named := by
    simp only [List.forall_mem_cons]
    refine ⟨rfl, rfl, rfl, rfl, rfl, nofun⟩

/-- The rooms can be included under either name. The echo cannot, and the shout no more. -/
theorem resolve_respelt_gallery :
    ((resolve {} gallery none (.listing ["rooms"])).result.isOk = true
        ∧ Accords (Document.Relists (.splice [] ["rooms"] []) (.splice [] ["wing"] []))
          (resolve {} gallery none (.listing ["rooms"])).result
          (resolve {} gallery none (.listing ["wing"])).result)
      ∧ Document.Circular (resolve {} gallery none (.listing ["shout"])).result := by
  have hrooms : Alias {} gallery "rooms" "wing" := by
    have hlist : gallery.list (Path.join "." "rooms") = .ok ["hall.json"] := by decide +kernel
    refine .directory (by decide +kernel) (by decide +kernel) (by decide +kernel) ?_
    intro listed hlisted
    cases hlist.symm.trans hlisted
    rw [List.forall_mem_singleton]
    exact fun _ => ⟨fun _ => by decide +kernel, fun _ => by decide +kernel,
      fun _ => by decide +kernel⟩
  have hecho : Alias {} gallery "echo" "shout" := by
    have hbare : ¬ Bears {} "echo" ∧ ¬ Bears {} "shout" := by
      rw [← hasExtension_iff, ← hasExtension_iff]
      decide
    exact .file (.extended (by decide +kernel) hbare.1) (.extended (by decide +kernel) hbare.2)
      (by decide +kernel) (by decide +kernel) (by decide +kernel) (by decide +kernel)
  obtain ⟨hresult, -⟩ := resolve_respelt hrooms [] [] (.listing _ _) none
  obtain ⟨-, hcircular⟩ := resolve_respelt hecho [] [] (.listing _ _) none
  refine ⟨⟨by decide +kernel, hresult⟩, hcircular.mp ⟨"./echo.json", ?_⟩⟩
  exact resolve_self ⟨rfl, rfl⟩ ⟨_, [(Reserved.includes, _)], rfl, rfl, rfl⟩ rfl

/-- A room with a link to itself, and a chest in it that is a link to another file. -/
def maze : FileTree where
  items :=
    [(["l"], .link "."),
      (["chest.json"], .link "gold"),
      (["gold"], .file (Text.encode (Json.object [("gold", .int 1)]).render))]
  base := []
  distinct := by decide
  named := by
    simp only [List.forall_mem_cons]
    refine ⟨rfl, rfl, rfl, nofun⟩

/-- The room of the maze, entered as often as links may be followed. -/
def deep : String := "/".intercalate (List.replicate Path.linkLimit "l")

theorem opens_maze {entry : String} (hclosed : Path.isOpen entry = false)
    (hlocate : maze.locate (Path.join "." entry) = .ok [])
    (hreal : maze.canonical (Path.join "." entry) = .ok []) :
    maze.isDirectory (Path.join "." entry) = true
      ∧ maze.realPlace? (Path.join "." entry) = some []
      ∧ Opens {} maze entry ["chest.json"] := by
  obtain ⟨hne, hslash⟩ := Path.isOpen_eq_false_iff.mp hclosed
  have hdirectory : maze.isDirectory (Path.join "." entry) = true :=
    FileTree.isDirectory_iff.mpr ⟨[], hlocate, rfl⟩
  have hlist : maze.list (Path.join "." entry) = .ok ["l", "chest.json", "gold"] :=
    FileTree.list_eq_ok_iff.mpr ⟨[], hlocate, rfl, rfl, rfl⟩
  exact ⟨hdirectory, FileTree.realPlace?_eq_some_iff.mpr hreal,
    opens_namesAmong hne hslash hdirectory hlist (by decide +kernel)⟩

/-- An entry is not found for its first name, if this is refused. -/
theorem Opens.resolve_of_strained {name : String} {names : List String}
    (h : s.Opens t entry (name :: names))
    (hstrained : t.Strained (Path.join (Path.join s.root entry) name)) (origin : Option String) :
    (s.resolve t origin (.listing [entry])).result
      = .error (.includeNotFound (Path.join (Path.join s.root entry) name)) := by
  have hincludes : s.includes t (.listing [entry]) = .ok ([entry].flatMap (s.targets t)) :=
    includes_eq_ok_iff.mpr ⟨[entry], .items rfl, expands_iff.mpr rfl⟩
  have hsplit : name :: names = [] ++ name :: names := rfl
  unfold resolve
  rw [resolveOn_eq, hincludes, List.flatMap_singleton]
  dsimp only
  rw [h.fold_of_notFile hsplit hstrained.isFile_eq_false]
  rfl

/-- **A spelling can matter.** There are two more ways into the same room, by which the chest is
not found. Its own link is one too many for the first one, and its path is too long by the second
one. And there is a bucket that can be included from above, but not from below the rope. -/
theorem resolve_strained :
    (maze.isDirectory (Path.join "." ".") = true ∧ maze.realPlace? (Path.join "." ".") = some []
        ∧ (resolve {} maze none (.listing ["."])).result.isOk = true)
      ∧ (maze.isDirectory (Path.join "." deep) = true
        ∧ maze.realPlace? (Path.join "." deep) = some []
        ∧ (resolve {} maze none (.listing [deep])).result
          = .error (.includeNotFound (Path.join (Path.join "." deep) "chest.json")))
      ∧ (maze.isDirectory (Path.join "." (Path.nested "." 2043)) = true
        ∧ maze.realPlace? (Path.join "." (Path.nested "." 2043)) = some []
        ∧ (resolve {} maze none (.listing [Path.nested "." 2043])).result
          = .error (.includeNotFound
            (Path.join (Path.join "." (Path.nested "." 2043)) "chest.json")))
      ∧ ((FileTree.well 1023).isFile "./bucket.json" = true
        ∧ (FileTree.well 1023).isFile (Path.join "." (FileTree.bucketBelow 1023)) = true
        ∧ (FileTree.well 1023).place? "./bucket.json"
          = (FileTree.well 1023).place? (Path.join "." (FileTree.bucketBelow 1023))
        ∧ (∃ result, (resolve {} (FileTree.well 1023) none (.listing ["bucket.json"])).result
          = .ok result)
        ∧ (resolve {} (FileTree.well 1023) none (.listing [FileTree.bucketBelow 1023])).result
          = .error (.refused .nameTooLong)) := by
  have hlinks : maze.Strained (Path.join (Path.join "." deep) "chest.json") :=
    .inr (by decide +kernel)
  -- so many dots are reasoned about and not evaluated
  have hjoin : Path.join "." (Path.nested "." 2043) = Path.nested "." 2044 :=
    Path.join_of_closed rfl (Path.isAbsolute_nested (by decide) 2043)
  have hsize : (Path.nested "." 2044).utf8ByteSize = 4089 :=
    Path.utf8ByteSize_nested "." 2044
  have hlocate : maze.locate (Path.join "." (Path.nested "." 2043)) = .ok [] := by
    rw [hjoin, FileTree.locate_eq_ok_iff, hsize]
    exact ⟨by decide, FileTree.find_dots rfl _ 2044⟩
  have hreal : maze.canonical (Path.join "." (Path.nested "." 2043)) = .ok [] := by
    rw [hjoin]
    exact FileTree.find_dots rfl _ 2044
  have hlong : maze.Strained (Path.join (Path.join "." (Path.nested "." 2043)) "chest.json") := by
    refine FileTree.strained_of_length ?_ ?_
    · rw [Path.zero_mem_join_iff (by decide +kernel), hjoin]
      exact Path.zero_not_mem_nested (by decide) _
    · rw [hjoin, Path.join_of_closed (Path.isOpen_nested (by decide) _) (by decide),
        String.utf8ByteSize_append, String.utf8ByteSize_append, hsize]
      decide
  obtain ⟨hdirectory, hreal₁, hopens⟩ := opens_maze (by decide +kernel)
    (by decide +kernel : maze.locate (Path.join "." deep) = .ok []) (by decide +kernel)
  obtain ⟨hdirectory', hreal₂, hopens'⟩ :=
    opens_maze (Path.isOpen_nested (by decide) 2043) hlocate hreal
  refine ⟨⟨by decide +kernel, by decide +kernel, by decide +kernel⟩,
    ⟨hdirectory, hreal₁, hopens.resolve_of_strained hlinks none⟩,
    ⟨hdirectory', hreal₂, hopens'.resolve_of_strained hlong none⟩,
    FileTree.leads_bucket.1, FileTree.isFile_bucketBelow (by decide), ?_, ?_, ?_⟩
  · rw [FileTree.place?_bucketBelow (by decide)]
    rfl
  · exact ⟨_, resolve_leaf FileTree.leads_bucket FileTree.holds_bucket rfl rfl⟩
  · rw [FileTree.resolve_bucketBelow rfl]
    rfl

end Shelf

end DialogueTree
