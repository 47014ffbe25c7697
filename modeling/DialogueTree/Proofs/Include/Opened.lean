import DialogueTree.Proofs.Include.Expansion
import DialogueTree.Proofs.Include.Origin

/-!
# What is opened

A list of includes may hold any texts, and the paths that are made of them may lead anywhere in a
tree. But all of them end in a dot and the extension. An entry that does not end so is extended, in
a directory only the names that end so are taken, and joining puts what it joins at the end. Hence
no other file can be opened through a list, at whatever depth, unless a link with such a name
leads to it.

Each file is told of before it is opened, and only if it is a regular file. So the events say
which files have been opened. That there are no others is said by comparing trees: where the
files are the same of which an event tells, so is all that comes of the document
(`resolveOn_congr`).
-/

namespace DialogueTree

/-- Joining puts a path at the end. -/
theorem Path.exists_join_eq (parent path : String) : ∃ front, join parent path = front ++ path := by
  cases habsolute : isAbsolute path with
  | true => exact ⟨"", by rw [join_of_absolute habsolute, String.empty_append]⟩
  | false =>
    obtain ⟨front, hfront⟩ := exists_lead parent
    exact ⟨front, hfront path habsolute⟩

/-- A file of which an event tells is the same in another tree. -/
def FileTree.SameFor (t t' : FileTree) (event : Event) : Prop :=
  ∀ path place, event = .including path → t.Leads path place → t.item? place = t'.item? place

namespace Shelf

variable {s : Shelf} {t t' : FileTree} {chain : List Place} {doc merged : Document}
  {entry path : String} {targets : List Target}

/-! ## Paths with the extension -/

theorem Bears.join (h : s.Bears path) (parent : String) : s.Bears (Path.join parent path) := by
  obtain ⟨stem, rfl⟩ := h
  obtain ⟨front, hfront⟩ := Path.exists_join_eq parent (stem ++ "." ++ s.extension)
  exact ⟨front ++ stem, by rw [hfront]; simp only [String.append_assoc]⟩

/-- **All files that an entry stands for bear the extension**, by a name in a directory, by the
entry itself, or because it was added. -/
theorem StandsFor.bears (h : s.StandsFor t entry targets) (hpath : .file path ∈ targets) :
    s.Bears path := by
  cases h with
  | directory _ _ _ hmem =>
    obtain ⟨name, hname, heq⟩ := List.mem_map.mp hpath
    cases heq
    exact ((hmem name).mp hname).2.join _
  | unlisted _ _ => cases List.mem_singleton.mp hpath
  | file _ hbears =>
    cases List.mem_singleton.mp hpath
    exact hbears.join _
  | extended _ _ =>
    cases List.mem_singleton.mp hpath
    exact Bears.join ⟨entry, rfl⟩ _

theorem Includes.bears (h : s.Includes t doc targets) (hpath : .file path ∈ targets) :
    s.Bears path := by
  obtain ⟨entries, -, hexpands⟩ := h
  rw [expands_iff.mp hexpands] at hpath
  obtain ⟨entry, -, hpath⟩ := List.mem_flatMap.mp hpath
  exact (standsFor_iff.mpr rfl : s.StandsFor t entry _).bears hpath

/-- An entry that lacks the extension stands for the same path as the entry that has it, if
none of the two is a directory. -/
theorem targets_extended (hbare : ¬ s.Bears entry)
    (hplain : t.isDirectory (Path.join s.root entry) = false)
    (hextended : t.isDirectory (Path.join s.root (entry ++ "." ++ s.extension)) = false) :
    s.targets t entry = s.targets t (entry ++ "." ++ s.extension) := by
  have hown : s.StandsFor t entry _ := .extended hplain hbare
  have hother : s.StandsFor t (entry ++ "." ++ s.extension) _ := .file hextended ⟨entry, rfl⟩
  rw [← standsFor_iff.mp hown, ← standsFor_iff.mp hother]

/-! ## What is told of is opened, and nothing else -/

/-- **Every event tells of a regular file whose path bears the extension.** -/
theorem opens_of_mem_events {event : Event} (h : event ∈ (s.resolveOn t chain doc).events) :
    ∃ path, event = .including path ∧ s.Bears path ∧ t.isFile path = true := by
  induction chain, doc using FileTree.chain_induction t with
  | step chain doc ih =>
    rw [resolveOn_eq] at h
    cases htargets : s.includes t doc with
    | error e =>
      rw [htargets] at h
      cases h
    | ok targets =>
      rw [htargets] at h
      obtain ⟨target, htarget, merged, hevent⟩ := Traced.mem_events_fold h
      rcases includeOn_cases s t chain merged target with
        ⟨e, -, heq⟩ | ⟨path, place, -, -, -, heq⟩ | ⟨path, place, fault, rfl, hleads, -, -, heq⟩ |
          ⟨path, place, included, rfl, hleads, hoff, -, heq⟩
      -- nothing is told before the file has been found and is known to be off the chain
      · rw [heq] at hevent
        cases hevent
      · rw [heq] at hevent
        cases hevent
      · rw [heq] at hevent
        have hbears := (includes_eq_ok_iff.mp htargets).bears htarget
        exact ⟨path, List.mem_singleton.mp hevent, hbears, hleads.1⟩
      · rw [heq] at hevent
        rcases List.mem_cons.mp hevent with hhere | hbelow
        · have hbears := (includes_eq_ok_iff.mp htargets).bears htarget
          exact ⟨path, hhere, hbears, hleads.1⟩
        · exact ih path place included hleads hoff hbelow

/-- Reading a file is the same in another tree that has the same place for it. -/
theorem load_congr {place : Place} (ht : t.SameShape t') (hleads : t.Leads path place)
    (hitem : t.item? place = t'.item? place) :
    (Source.path path).load t = (Source.path path).load t' := by
  obtain ⟨bytes, hhere, hread⟩ := hleads.read_eq
  obtain ⟨bytes', hthere, hread'⟩ := (ht.leads_iff.mp hleads).read_eq
  rw [hhere, hthere] at hitem
  cases hitem
  simp only [Source.load, hread, hread', ht.locked]

/-- One include in another tree, if what lies below it is known. -/
theorem includeOn_congr {target : Target} (ht : t.SameShape t')
    (hsame : ∀ event ∈ (s.includeOn t chain merged target).events, t.SameFor t' event)
    (hbelow : ∀ path place included, t.Leads path place → place ∉ chain →
      (∀ event ∈ (s.resolveOn t (place :: chain) included).events, t.SameFor t' event) →
      s.resolveOn t (place :: chain) included = s.resolveOn t' (place :: chain) included) :
    s.includeOn t chain merged target = s.includeOn t' chain merged target := by
  rcases t.misses_or_leads target with ⟨e, hmisses⟩ | ⟨path, place, rfl, hleads⟩
  · rw [includeOn_of_misses hmisses, includeOn_of_misses (ht.misses_iff.mp hmisses)]
  · have hleads' := ht.leads_iff.mp hleads
    by_cases hchain : place ∈ chain
    · rw [includeOn_of_mem hleads hchain, includeOn_of_mem hleads' hchain]
    · rw [includeOn_of_not_mem hleads hchain] at hsame ⊢
      -- the file has been told of by the time that it is read
      have hitem := hsame _ List.mem_cons_self path place rfl hleads
      rw [includeOn_of_not_mem hleads' hchain, ← load_congr ht hleads hitem]
      cases hdoc : (Source.path path).load t with
      | error e => rfl
      | ok included =>
        rw [hdoc] at hsame
        dsimp only
        rw [hbelow path place included hleads hchain fun event hevent =>
          hsame event (List.mem_cons_of_mem _ hevent)]

/-- **Only the files that are told of are read.** What is in the others has no influence on the
result, on the error or on the events. -/
theorem resolveOn_congr (ht : t.SameShape t')
    (hsame : ∀ event ∈ (s.resolveOn t chain doc).events, t.SameFor t' event) :
    s.resolveOn t chain doc = s.resolveOn t' chain doc := by
  induction chain, doc using FileTree.chain_induction t with
  | step chain doc ih =>
    have hincludes : s.includes t' doc = s.includes t doc := by
      unfold includes
      rw [s.targets_eq ht]
    rw [resolveOn_eq] at hsame
    rw [resolveOn_eq, resolveOn_eq, hincludes]
    cases htargets : s.includes t doc with
    | error e => rfl
    | ok targets =>
      rw [htargets] at hsame
      exact Traced.fold_congr_of_events (fun target _ merged hown => includeOn_congr ht hown ih)
        hsame

/-- **Only documents are opened.** A name has the extension if it ends in a dot and the extension,
whatever the extension is. Every path of which an event tells has it, and leads to a regular
file, however deep it was found and however it was written in a list. No other file is read: what
is in the others may be anything.

An entry that lacks the extension is the same as the entry with it, unless one of them is a
directory. It contributes the same wherever it is included; and in a list, be it that of the
document or one in the files of a tree, it may be replaced, with the same events, and with the
same error if there is one, or else with the same result but for a list that is this very one. -/
theorem resolve_opens_documents (s : Shelf) (t : FileTree) :
    (∀ name, s.hasExtension name = true ↔ ∃ stem, name = stem ++ "." ++ s.extension)
      ∧ (∀ origin doc, ∀ event ∈ (s.resolve t origin doc).events,
        ∃ path, event = .including path ∧ (∃ stem, path = stem ++ "." ++ s.extension)
          ∧ t.isFile path = true)
      ∧ (∀ origin doc t', t.SameShape t' →
        (∀ path place, .including path ∈ (s.resolve t origin doc).events → t.Leads path place →
          t.item? place = t'.item? place) →
        s.resolve t origin doc = s.resolve t' origin doc)
      ∧ ∀ entry, s.hasExtension entry = false →
        t.isDirectory (Path.join s.root entry) = false →
        t.isDirectory (Path.join s.root (entry ++ "." ++ s.extension)) = false →
        (∀ chain merged, Traced.fold (s.includeOn t chain) merged (s.targets t entry)
            = Traced.fold (s.includeOn t chain) merged
              (s.targets t (entry ++ "." ++ s.extension)))
          ∧ ∀ before behind list list', list = .splice before [entry] behind →
            list' = .splice before [entry ++ "." ++ s.extension] behind →
            ∀ t' doc doc' origin, t.Corresponds (Document.Relists list list') t' →
            doc.Relists list list' doc' →
            (s.resolve t origin doc).Parallel (Document.Relists list list')
              (s.resolve t' origin doc') := by
  refine ⟨fun name => hasExtension_iff, ?_, ?_, ?_⟩
  · intro origin doc event hevent
    exact opens_of_mem_events hevent
  · intro origin doc t' ht hsame
    have horigin : t.realPlace? = t'.realPlace? := funext ht.realPlace?_eq
    unfold resolve at hsame ⊢
    rw [← horigin]
    refine resolveOn_congr ht fun event hevent path place hpath hleads => ?_
    rw [hpath] at hevent
    exact hsame path place hevent hleads
  · intro entry hbare hplain hextended
    have hlacks : ¬ s.Bears entry := by rw [← hasExtension_iff, hbare]; exact Bool.false_ne_true
    have htargets := targets_extended hlacks hplain hextended
    refine ⟨fun chain merged => by rw [htargets], ?_⟩
    intro before behind list list' hlist hlist' t' doc doc' origin ht hdoc
    subst hlist hlist'
    have hpaths : [entry].flatMap (s.targets t)
        = [entry ++ "." ++ s.extension].flatMap (s.targets t) := by
      rw [List.flatMap_singleton, List.flatMap_singleton, htargets]
    exact (preserves_relists ht.sameShape hpaths).resolve ht hdoc origin

/-- A plan that includes all rooms, of which there is one. It is a link out of the directory, to a
file without an extension. Next to it there are notes, which have half of the extension. -/
def study (notes : Bytes) : FileTree where
  items :=
    [(["plan.pièce.2"], .file (Text.encode (Json.object
        [(Reserved.includes, .array [.string "rooms"]), ("plan", .int 1)]).render)),
      (["rooms"], .directory),
      (["rooms", "attic.pièce.2"], .link "../gold"),
      (["rooms", "notes.2"], .file notes),
      (["gold"], .file (Text.encode (Json.object [("gold", .int 1)]).render))]
  base := []
  distinct := by
    show [["plan.pièce.2"], ["rooms"], ["rooms", "attic.pièce.2"], ["rooms", "notes.2"],
      ["gold"]].Nodup
    decide
  named := by
    simp only [List.forall_mem_cons]
    refine ⟨rfl, rfl, rfl, rfl, rfl, nofun⟩

theorem study_sameShape (notes notes' : Bytes) : (study notes).SameShape (study notes') where
  base := rfl
  locked _ := rfl
  items := by
    intro place
    by_cases hnotes : place = ["rooms", "notes.2"]
    · rw [hnotes]
      exact .inr ⟨notes, notes', rfl, rfl⟩
    · left
      simp [FileTree.item?, study, List.lookup_cons, beq_false_of_ne hnotes]

/-- The plan and the room are opened, also if the plan is listed with its extension. The notes are
not, so they may be torn. -/
theorem resolve_opens_documents_study :
    let shelf : Shelf := { extension := "pièce.2" }
    ((shelf.resolve (study []) none (.listing ["plan"])).events
          = [.including "./plan.pièce.2", .including "./rooms/attic.pièce.2"]
        ∧ (study []).isFile "./rooms/attic.pièce.2" = true)
      ∧ shelf.resolve (study []) none (.listing ["plan"])
        = shelf.resolve (study (Text.encode "torn")) none (.listing ["plan"])
      ∧ (shelf.resolve (study []) none (.listing ["plan"])).Parallel
          (Document.Relists (.splice [] ["plan"] []) (.splice [] ["plan.pièce.2"] []))
          (shelf.resolve (study []) none (.listing ["plan.pièce.2"])) := by
  intro shelf
  have hevents : (shelf.resolve (study []) none (.listing ["plan"])).events
      = [.including "./plan.pièce.2", .including "./rooms/attic.pièce.2"] := by
    decide +kernel
  have hplan : (study []).Leads "./plan.pièce.2" ["plan.pièce.2"] := ⟨by decide +kernel, by rfl⟩
  have hattic : (study []).Leads "./rooms/attic.pièce.2" ["gold"] :=
    ⟨by decide +kernel, by rfl⟩
  obtain ⟨-, hopens, hread, hentry⟩ := resolve_opens_documents shelf (study [])
  refine ⟨⟨hevents, ?_⟩, ?_, ?_⟩
  · obtain ⟨path, hpath, -, hfile⟩ := hopens none (.listing ["plan"])
      (.including "./rooms/attic.pièce.2") (by rw [hevents]; simp)
    cases hpath
    exact hfile
  · refine hread none (.listing ["plan"]) (study (Text.encode "torn")) (study_sameShape _ _)
      fun path place hpath hleads => ?_
    rw [hevents] at hpath
    simp only [List.mem_cons, List.not_mem_nil, or_false, Event.including.injEq] at hpath
    rcases hpath with rfl | rfl
    · cases hleads.unique hplan
      rfl
    · cases hleads.unique hattic
      rfl
  · obtain ⟨-, hlists⟩ := hentry "plan" (by decide) (by decide +kernel) (by decide +kernel)
    refine hlists [] [] _ _ rfl rfl (study []) _ _ none ?_ (.listing _ _)
    exact ⟨rfl, fun _ => rfl, fun _ => .inl rfl⟩

end Shelf

end DialogueTree
