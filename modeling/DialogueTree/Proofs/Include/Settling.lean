import DialogueTree.Proofs.Include.PreOrder

/-!
# Resolving again

What has been put together can be put together again. It still has a list of includes,
though not always its own: merging goes over the reserved key like over any other, so the
list that is left is that of the last document of the include tree that has one.

The files on that list come right behind that document in pre-order. So they list nothing
themselves, none of them is on the chain, and all of them have been merged before. This is
what `Shallow` says, and resolving keeps it: each further pass merges the same few files over
the result. The first of these passes may change something, because a file that came later in
the tree may have won over one of them. The passes behind it merge what lies on top already.
-/

namespace DialogueTree.Shelf

variable {s : Shelf} {t : FileTree} {chain : List Place} {doc first : Document}
  {visits leaves : List Visit}

/-! ## Shallow documents -/

/-- All that a document includes are files off the chain, and their documents list nothing.
These files are the leaves of the document, in the order of its list. -/
structure Shallow (s : Shelf) (t : FileTree) (chain : List Place) (doc : Document)
    (leaves : List Visit) : Prop where
  includes : s.Includes t doc (leaves.map Visit.target)
  leads : ∀ leaf ∈ leaves, t.Leads leaf.path leaf.place
  offChain : ∀ leaf ∈ leaves, leaf.place ∉ chain
  holds : ∀ leaf ∈ leaves, t.Holds leaf.place leaf.document
  listless : ∀ leaf ∈ leaves, leaf.document.get? Reserved.includes = none

/-- Including leaves one after the other lays their documents over what has been merged. -/
theorem fold_leaves (merged : Document)
    (hleads : ∀ leaf ∈ leaves, t.Leads leaf.path leaf.place)
    (hoff : ∀ leaf ∈ leaves, leaf.place ∉ chain)
    (hholds : ∀ leaf ∈ leaves, t.Holds leaf.place leaf.document)
    (hlistless : ∀ leaf ∈ leaves, leaf.document.get? Reserved.includes = none) :
    (Traced.fold (s.includeOn t chain) merged (leaves.map Visit.target)).result
      = .ok (merged.layer (documents leaves)) := by
  induction leaves generalizing merged with
  | nil => rfl
  | cons leaf leaves ih =>
    rw [List.forall_mem_cons] at hleads hoff hholds hlistless
    have hfirst : (s.includeOn t chain merged leaf.target).result
        = .ok (merged.merge leaf.document) := by
      rw [Visit.target, includeOn_of_holds hleads.1 hoff.1 hholds.1,
        resolveOn_of_listless hlistless.1]
      rfl
    rw [List.map_cons, Traced.fold_cons, Traced.result_bind_eq_ok_iff]
    exact ⟨_, hfirst, ih _ hleads.2 hoff.2 hholds.2 hlistless.2⟩

/-- **Putting a shallow document together lays its leaves over it.** -/
theorem Shallow.resolveOn (h : s.Shallow t chain doc leaves) :
    (s.resolveOn t chain doc).result = .ok (doc.layer (documents leaves)) :=
  resolveOn_eq_ok_iff.mpr
    ⟨_, h.includes, fold_leaves doc h.leads h.offChain h.holds h.listless⟩

/-- A name that no file of an include tree defines is left to the document. -/
theorem get?_layer_of_undefined {k : String} (h : ∀ visit ∈ visits, visit.document.get? k = none) :
    (doc.layer (documents visits)).get? k = doc.get? k := by
  have hnone : (documents visits).reverse.findSome? (·.get? k) = none := by
    rw [List.findSome?_eq_none_iff]
    intro d hd
    obtain ⟨visit, hvisit, rfl⟩ := List.mem_map.mp (List.mem_reverse.mp hd)
    exact h visit hvisit
  rw [Table.get?_layer_or, hnone, Option.none_or]

/-- A shallow document stays one, with the same leaves. -/
theorem Shallow.again (h : s.Shallow t chain doc leaves) :
    s.Shallow t chain (doc.layer (documents leaves)) leaves :=
  { h with includes := h.includes.congr (get?_layer_of_undefined h.listless).symm }

/-- **A shallow document that its leaves lie over already does not change any more.** -/
theorem Shallow.settled (h : s.Shallow t chain doc leaves) :
    (s.resolveOn t chain (doc.layer (documents leaves))).result
      = .ok (doc.layer (documents leaves)) := by
  rw [h.again.resolveOn, Table.layer_layer_self]

/-! ## The list that is left -/

/-- Nothing that could be included is on the chain, however deep it lies. -/
theorem offChain_of_resolveOn (h : (s.resolveOn t chain doc).result = .ok first)
    (horder : s.PreOrder t doc visits) : ∀ visit ∈ visits, visit.place ∉ chain := by
  induction chain, doc using FileTree.chain_induction t generalizing first visits with
  | step chain doc ih =>
    obtain ⟨targets, htargets, hfold⟩ := resolveOn_eq_ok_iff.mp h
    obtain ⟨targets', htargets', hunfolds⟩ := horder
    cases htargets.unique htargets'
    have hparts := Traced.exists_ok_of_fold hfold
    clear hfold htargets htargets' h
    -- the induction is on the list; below each of its files `ih` speaks of a longer chain
    induction hunfolds with
    | nil => simp
    | @cons path place included own targets below rest hleads hholds hown hbelow _ _ ihrest =>
      rw [List.forall_mem_cons] at hparts
      obtain ⟨⟨merged, next, hnext⟩, hparts⟩ := hparts
      obtain ⟨_, place', included', whole, heq, hleads', hoff, hholds', hwhole, -⟩ :=
        includeOn_eq_ok_iff.mp hnext
      cases heq
      cases hleads.unique hleads'
      cases hholds.unique hholds'
      have hdeeper := ih path place included hleads hoff hwhole ⟨own, hown, hbelow⟩
      rw [List.forall_mem_cons, List.forall_mem_append]
      refine ⟨hoff, ?_, ihrest hparts⟩
      intro visit hvisit hmem
      exact hdeeper visit hvisit (List.mem_cons_of_mem _ hmem)

/-- The last document with a list is followed by the files on that list, which list
nothing. -/
theorem exists_leaves {targets : List Target} {list : Json} (htargets : s.Includes t doc targets)
    (hunfolds : s.Unfolds t targets visits)
    (hlast : Table.LastBinds (doc :: documents visits) Reserved.includes list) :
    ∃ last : Document, last.get? Reserved.includes = some list
      ∧ ∃ leaves : List Visit, s.Includes t last (leaves.map Visit.target)
        ∧ ∀ leaf ∈ leaves, leaf ∈ visits ∧ leaf.document.get? Reserved.includes = none := by
  obtain ⟨before, last, behind, hsplit, hlist, hbehind⟩ := hlast
  refine ⟨last, hlist, ?_⟩
  rcases List.cons_eq_append_iff.mp hsplit with ⟨rfl, hhere⟩ | ⟨before', rfl, hsplit'⟩
  · -- it is the root document, and no file has a list
    cases hhere
    obtain ⟨tops, rfl, hsub⟩ := hunfolds.exists_tops
    refine ⟨tops, htargets, ?_⟩
    intro leaf hleaf
    exact ⟨hsub.subset hleaf, hbehind _ (List.mem_map_of_mem (hsub.subset hleaf))⟩
  · -- it is the document of a file
    obtain ⟨before, back, rfl, rfl, hback⟩ := List.map_eq_append_iff.mp hsplit'
    obtain ⟨visit, behind, rfl, rfl, rfl⟩ := List.map_eq_cons_iff.mp hback
    obtain ⟨own, below, rest, hown, hbelow, rfl⟩ := hunfolds.exists_below rfl
    obtain ⟨tops, rfl, hsub⟩ := hbelow.exists_tops
    refine ⟨tops, hown, ?_⟩
    intro leaf hleaf
    have hmem : leaf ∈ below ++ rest := List.mem_append_left _ (hsub.subset hleaf)
    exact ⟨by simp [hmem], hbehind _ (List.mem_map_of_mem hmem)⟩

/-- **What has been put together is shallow**, and its leaves are among the files that have
been included. -/
theorem exists_shallow (h : (s.resolveOn t chain doc).result = .ok first)
    (horder : s.PreOrder t doc visits) :
    ∃ leaves, s.Shallow t chain first leaves ∧ ∀ leaf ∈ leaves, leaf ∈ visits := by
  have hoff := offChain_of_resolveOn h horder
  obtain ⟨visits', horder', rfl⟩ := preOrder_of_resolveOn h
  cases horder.unique horder'
  obtain ⟨targets, htargets, hunfolds⟩ := horder
  cases hlist : (doc.layer (documents visits)).get? Reserved.includes with
  | none => exact ⟨[], ⟨includes_nil hlist, nofun, nofun, nofun, nofun⟩, nofun⟩
  | some list =>
    obtain ⟨last, hlast, leaves, hleaves, hamong⟩ :=
      exists_leaves htargets hunfolds (Table.get?_layer_eq_some_iff.mp hlist)
    refine ⟨leaves, ?_, fun leaf hleaf => (hamong leaf hleaf).1⟩
    exact {
      includes := hleaves.congr (hlast.trans hlist.symm)
      leads := fun leaf hleaf => (hunfolds.leads leaf (hamong leaf hleaf).1).1
      offChain := fun leaf hleaf => hoff leaf (hamong leaf hleaf).1
      holds := fun leaf hleaf => (hunfolds.leads leaf (hamong leaf hleaf).1).2
      listless := fun leaf hleaf => (hamong leaf hleaf).2 }

/-- What has been put together still has a list that can be read, if it has any. -/
theorem exists_lists_of_resolveOn (h : (s.resolveOn t chain doc).result = .ok first) :
    ∃ entries, first.Lists entries := by
  obtain ⟨visits, horder, -⟩ := preOrder_of_resolveOn h
  obtain ⟨leaves, hshallow, -⟩ := exists_shallow h horder
  obtain ⟨entries, hlists, -⟩ := hshallow.includes
  exact ⟨entries, hlists⟩

/-! ## Further passes -/

/-- The result of resolving the includes of a document so many times, each time those of the
result before. -/
def passes (s : Shelf) (t : FileTree) (origin : Option String) (doc : Document) :
    Nat → Traced Document
  | 0 => .ok doc
  | n + 1 => (passes s t origin doc n).bind (s.resolve t origin)

/-- **Two passes are enough.** If the includes of a document can be resolved, so can those of
the result, and those of every further result. From the second pass on nothing changes. -/
theorem resolve_settles {origin : Option String}
    (h : (s.resolve t origin doc).result = .ok first) :
    ∃ second, (s.resolve t origin first).result = .ok second
      ∧ ∀ n, (s.passes t origin doc (n + 2)).result = .ok second := by
  obtain ⟨visits, horder, -⟩ := preOrder_of_resolveOn h
  obtain ⟨leaves, hshallow, -⟩ := exists_shallow h horder
  refine ⟨first.layer (documents leaves), hshallow.resolveOn, ?_⟩
  intro n
  induction n with
  | zero =>
    have hfirst : (s.passes t origin doc 1).result = .ok first :=
      Traced.result_bind_eq_ok_iff.mpr ⟨doc, rfl, h⟩
    exact Traced.result_bind_eq_ok_iff.mpr ⟨first, hfirst, hshallow.resolveOn⟩
  | succ n ih => exact Traced.result_bind_eq_ok_iff.mpr ⟨_, ih, hshallow.settled⟩

/-- Of two files the second has the last word on the attic. But the list that is left is that
of the first one. -/
def twoAttics : FileTree :=
  let early := Json.object [("attic", .int 1)]
  let hall := Json.object [(Reserved.includes, .array [.string "early"])]
  let late := Json.object [("attic", .int 2)]
  ((FileTree.empty.write ["early.json"] (Text.encode early.render)).write ["hall.json"]
    (Text.encode hall.render)).write ["late.json"] (Text.encode late.render)

/-- The second pass brings an attic back that the first pass had gone over. There it stays. -/
theorem resolve_settles_twoAttics :
    ∃ first second,
      (resolve {} twoAttics none (.listing ["hall", "late"])).result = .ok first
      ∧ (first.get? "attic").map Json.render = some "2"
      ∧ (resolve {} twoAttics none first).result = .ok second
      ∧ (second.get? "attic").map Json.render = some "1"
      ∧ ∀ n, (passes {} twoAttics none (.listing ["hall", "late"]) (n + 2)).result
        = .ok second := by
  have hfirst : (resolve {} twoAttics none (.listing ["hall", "late"])).result.toOption.map
      (fun d => (d.get? "attic").map Json.render) = some (some "2") := by
    decide +kernel
  have hsecond : (passes {} twoAttics none (.listing ["hall", "late"]) 2).result.toOption.map
      (fun d => (d.get? "attic").map Json.render) = some (some "1") := by
    decide +kernel
  cases hresult : (resolve {} twoAttics none (.listing ["hall", "late"])).result with
  | error e =>
    rw [hresult] at hfirst
    cases hfirst
  | ok first =>
    obtain ⟨second, hagain, hlater⟩ := resolve_settles hresult
    rw [hresult] at hfirst
    rw [hlater 0] at hsecond
    exact ⟨first, second, rfl, Option.some.inj hfirst, hagain, Option.some.inj hsecond, hlater⟩

/-! ## When one pass is enough -/

/-- No name but the reserved one is defined in two different files of an include tree. -/
def Apart (visits : List Visit) : Prop :=
  ∀ visit ∈ visits, ∀ other ∈ visits, ∀ k, k ≠ Reserved.includes →
    visit.document.contains k = true → other.document.contains k = true →
    visit.place = other.place

/-- Where files are apart, none of them goes over what another one defines. -/
theorem get?_layer_of_apart {targets : List Target} {leaf : Visit} {k : String} {v : Json}
    (hunfolds : s.Unfolds t targets visits) (hapart : Apart visits) (hk : k ≠ Reserved.includes)
    (hleaf : leaf ∈ visits) (hv : leaf.document.get? k = some v) :
    (doc.layer (documents visits)).get? k = some v := by
  have hmem : leaf.document ∈ (documents visits).reverse :=
    List.mem_reverse.mpr (List.mem_map_of_mem hleaf)
  have hsome : ((documents visits).reverse.findSome? (·.get? k)).isSome = true :=
    List.findSome?_isSome_iff.mpr ⟨leaf.document, hmem, by rw [hv]; rfl⟩
  obtain ⟨v', hv'⟩ := Option.isSome_iff_exists.mp hsome
  obtain ⟨d, hd, hget⟩ := List.exists_of_findSome?_eq_some hv'
  obtain ⟨visit, hvisit, rfl⟩ := List.mem_map.mp (List.mem_reverse.mp hd)
  -- whichever file has the last word on the name, it is the same file
  have hplace : visit.place = leaf.place :=
    hapart visit hvisit leaf hleaf k hk (by simp [Table.contains, hget])
      (by simp [Table.contains, hv])
  have hholds := (hunfolds.leads visit hvisit).2
  rw [hplace] at hholds
  rw [hholds.unique (hunfolds.leads leaf hleaf).2, hv] at hget
  rw [Table.get?_layer_or, hv', ← hget, Option.some_or]

/-- Where files are apart, the leaves say nothing that has not been merged already. -/
theorem resolveOn_again_of_apart (h : (s.resolveOn t chain doc).result = .ok first)
    (horder : s.PreOrder t doc visits) (hapart : Apart visits) :
    (s.resolveOn t chain first).result = .ok first := by
  obtain ⟨leaves, hshallow, hamong⟩ := exists_shallow h horder
  obtain ⟨visits', horder', rfl⟩ := preOrder_of_resolveOn h
  cases horder.unique horder'
  obtain ⟨targets, -, hunfolds⟩ := horder
  have hbound : ∀ d ∈ documents leaves, ∀ k v, d.get? k = some v →
      (doc.layer (documents visits)).get? k = some v := by
    intro d hd k v hv
    obtain ⟨leaf, hleaf, rfl⟩ := List.mem_map.mp hd
    have hk : k ≠ Reserved.includes := by
      rintro rfl
      rw [hshallow.listless leaf hleaf] at hv
      cases hv
    exact get?_layer_of_apart hunfolds hapart hk (hamong leaf hleaf) hv
  have hagain := hshallow.resolveOn
  rwa [Table.layer_eq_self hbound] at hagain

/-- Where no file has a list, the document is shallow itself: all files are its leaves. -/
theorem resolveOn_again_of_listless (h : (s.resolveOn t chain doc).result = .ok first)
    (horder : s.PreOrder t doc visits)
    (hlistless : ∀ visit ∈ visits, visit.document.get? Reserved.includes = none) :
    (s.resolveOn t chain first).result = .ok first := by
  have hoff := offChain_of_resolveOn h horder
  obtain ⟨targets, htargets, hunfolds⟩ := horder
  have hshallow : s.Shallow t chain doc visits := {
    includes := by rwa [hunfolds.map_target hlistless]
    leads := fun visit hvisit => (hunfolds.leads visit hvisit).1
    offChain := hoff
    holds := fun visit hvisit => (hunfolds.leads visit hvisit).2
    listless := hlistless }
  cases h.symm.trans hshallow.resolveOn
  exact hshallow.settled

/-- **When resolving is idempotent.** Another pass changes nothing if no name but the reserved
one is defined in two different included files, or if no included file has a list of its
own. -/
theorem resolve_idempotent {origin : Option String}
    (h : (s.resolve t origin doc).result = .ok first) (horder : s.PreOrder t doc visits)
    (hwhen : Apart visits
      ∨ ∀ visit ∈ visits, visit.document.get? Reserved.includes = none) :
    (s.resolve t origin first).result = .ok first := by
  rcases hwhen with hapart | hlistless
  · exact resolveOn_again_of_apart h horder hapart
  · exact resolveOn_again_of_listless h horder hlistless

/-- A hall that includes a cellar. -/
def hallOverCellar : FileTree :=
  let cellar := Json.object [("cellar", .int 1)]
  let hall := Json.object [(Reserved.includes, .array [.string "cellar"]), ("hall", .int 2)]
  (FileTree.empty.write ["cellar.json"] (Text.encode cellar.render)).write ["hall.json"]
    (Text.encode hall.render)

/-- A document that has a hall of its own, and includes the cellar twice. -/
def ownHall : Document := .ofList [
  (Reserved.includes, .array [.string "hall", .string "cellar"]), ("hall", .int 3)]

/-- Hall and cellar are apart, so the second pass changes nothing, although it goes by the
list of the hall. -/
theorem resolve_idempotent_ownHall :
    ∃ first, (resolve {} hallOverCellar none ownHall).result = .ok first
      ∧ (first.get? "hall").map Json.render = some "2"
      ∧ (first.get? Reserved.includes).map Json.render = some "[\"cellar\"]"
      ∧ (resolve {} hallOverCellar none first).result = .ok first := by
  have hfirst : (resolve {} hallOverCellar none ownHall).result.toOption.map
      (fun d => ((d.get? "hall").map Json.render, (d.get? Reserved.includes).map Json.render))
        = some (some "2", some "[\"cellar\"]") := by
    decide +kernel
  -- the include tree, file by file
  let hall : Document := .ofList [
    (Reserved.includes, .array [.string "cellar"]), ("hall", .int 2)]
  let cellar : Document := .ofList [("cellar", .int 1)]
  have hcellar : Unfolds {} hallOverCellar [.file "./cellar.json"]
      [⟨"./cellar.json", ["cellar.json"], cellar⟩] :=
    .cons ⟨rfl, rfl⟩ ⟨_, _, rfl, rfl, rfl⟩ (includes_nil rfl) .nil .nil
  have horder : PreOrder {} hallOverCellar ownHall [⟨"./hall.json", ["hall.json"], hall⟩,
      ⟨"./cellar.json", ["cellar.json"], cellar⟩, ⟨"./cellar.json", ["cellar.json"], cellar⟩] :=
    ⟨[.file "./hall.json", .file "./cellar.json"], includes_eq_ok_iff.mp rfl,
      .cons ⟨rfl, rfl⟩ ⟨_, _, rfl, rfl, rfl⟩ (includes_eq_ok_iff.mp rfl) hcellar hcellar⟩
  have hapart : Apart [⟨"./hall.json", ["hall.json"], hall⟩,
      ⟨"./cellar.json", ["cellar.json"], cellar⟩, ⟨"./cellar.json", ["cellar.json"], cellar⟩] := by
    have hhall : ∀ k, k ≠ Reserved.includes → hall.contains k = true → k = "hall" := by
      intro k hk hcontains
      by_contra hne
      simp [hall, Table.contains, Table.get?_ofList, Table.lookup_cons_eq, hk, hne] at hcontains
    have hcellar : ∀ k, cellar.contains k = true → k = "cellar" := by
      intro k hcontains
      by_contra hne
      simp [cellar, Table.contains, Table.get?_ofList, Table.lookup_cons_eq, hne] at hcontains
    intro visit hvisit other hother k hk hfirst hsecond
    simp only [List.mem_cons, List.not_mem_nil, or_false, or_self] at hvisit hother
    rcases hvisit with rfl | rfl <;> rcases hother with rfl | rfl
    · rfl
    · exact absurd ((hhall k hk hfirst).symm.trans (hcellar k hsecond)) (by decide)
    · exact absurd ((hcellar k hfirst).symm.trans (hhall k hk hsecond)) (by decide)
    · rfl
  cases hresult : (resolve {} hallOverCellar none ownHall).result with
  | error e =>
    rw [hresult] at hfirst
    cases hfirst
  | ok first =>
    rw [hresult] at hfirst
    have hshows := Prod.mk.inj (Option.some.inj hfirst)
    exact ⟨first, rfl, hshows.1, hshows.2, resolve_idempotent hresult horder (.inl hapart)⟩

end DialogueTree.Shelf
