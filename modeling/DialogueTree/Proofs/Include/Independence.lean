import DialogueTree.Proofs.Include.Settling
import Mathlib.Data.List.Perm.Basic

/-!
# Entries do not depend on one another

The entries of a list are processed one after the other, over one document that grows and on
one chain. Still, what an entry contributes does not depend on what came before it. The chain
is the same again when an entry is done, and the document is only merged into and never looked
at (`includeOn_merge`). So each entry has a contribution of its own (`contribution`), and to
put a document together is to merge the contributions of its entries in order.

Whether all of them succeed is then no matter of the order. Neither is which files are visited,
and where no two files define the same name, the visits alone decide what is in the result.
Only the reserved key is defined by many files, and there the last one still wins.
-/

namespace DialogueTree

/-- Documents that list the same, in different orders, and differ in nothing else. -/
structure Document.Reorders (doc other : Document) : Prop where
  lists : ∃ items items', doc.get? Reserved.includes = some (.array items)
    ∧ other.get? Reserved.includes = some (.array items') ∧ items.Perm items'
  rest : ∀ k, k ≠ Reserved.includes → doc.get? k = other.get? k

namespace Document.Reorders

variable {doc other : Document}

theorem symm (h : doc.Reorders other) : other.Reorders doc := by
  obtain ⟨⟨items, items', hitems, hitems', hperm⟩, hrest⟩ := h
  exact ⟨⟨items', items, hitems', hitems, hperm.symm⟩, fun k hk => (hrest k hk).symm⟩

theorem contains_eq (h : doc.Reorders other) (k : String) : doc.contains k = other.contains k := by
  unfold Table.contains
  by_cases hk : k = Reserved.includes
  · obtain ⟨items, items', hitems, hitems', -⟩ := h.lists
    rw [hk, hitems, hitems']
    rfl
  · rw [h.rest k hk]

/-- If the one list can be read so can the other one. -/
theorem exists_lists (h : doc.Reorders other) {entries : List String} (hlists : doc.Lists entries) :
    ∃ entries', other.Lists entries' ∧ entries.Perm entries' := by
  obtain ⟨items, items', hitems, hitems', hperm⟩ := h.lists
  cases hlists with
  | nothing hnone => cases hnone.symm.trans hitems
  | items hstrings =>
    cases hstrings.symm.trans hitems
    cases hread : items'.mapM Json.readPath with
    | error fault =>
      -- an item that is no string would be on the first list as well
      obtain ⟨before, item, behind, rfl, hitem, -⟩ := mapM_readPath_eq_error_iff.mp hread
      obtain ⟨entry, -, rfl⟩ := List.mem_map.mp (hperm.mem_iff.mpr (by simp : item ∈ _))
      exact absurd rfl (hitem entry)
    | ok entries' =>
      cases mapM_readPath_eq_ok_iff.mp hread
      refine ⟨entries', .items hitems', ?_⟩
      exact (List.map_perm_map_iff fun _ _ hstring => Json.string.inj hstring).mp hperm

end Document.Reorders

namespace Shelf

variable {s : Shelf} {t : FileTree} {chain : List Place} {doc other : Document}

/-! ## What an entry contributes -/

/-- The documents that an entry of a list stands for, put together and merged in order. -/
def contribution (s : Shelf) (t : FileTree) (chain : List Place) (entry : String) :
    Traced Document :=
  Traced.fold (s.includeOn t chain) .empty (s.targets t entry)

/-- **An include does not look at what has been merged before.** -/
theorem includeOn_merge (s : Shelf) (t : FileTree) (chain : List Place) (merged below : Document)
    (target : Target) :
    s.includeOn t chain (merged.merge below) target
      = (s.includeOn t chain below target).map merged.merge := by
  rcases t.misses_or_leads target with ⟨e, hmisses⟩ | ⟨path, place, rfl, hleads⟩
  · rw [includeOn_of_misses hmisses, includeOn_of_misses hmisses]
    rfl
  · by_cases hchain : place ∈ chain
    · rw [includeOn_of_mem hleads hchain, includeOn_of_mem hleads hchain]
      rfl
    · rw [includeOn_of_not_mem hleads hchain, includeOn_of_not_mem hleads hchain]
      cases (Source.path path).load t with
      | error e => rfl
      | ok included =>
        have hassoc : (merged.merge below).merge = fun d => merged.merge (below.merge d) :=
          funext fun d => Table.merge_assoc merged below d
        have hmap := Traced.map_map (s.resolveOn t (place :: chain) included) below.merge
          merged.merge
        dsimp only
        rw [hassoc, ← hmap]
        rfl

/-- Whatever has been merged before, an entry merges its contribution over it. -/
theorem fold_targets (merged : Document) (entry : String) :
    Traced.fold (s.includeOn t chain) merged (s.targets t entry)
      = (s.contribution t chain entry).map merged.merge :=
  Traced.fold_comm (s.includeOn_merge t chain merged) .empty (s.targets t entry)

/-- **A document is put together from the contributions of its entries.** -/
theorem resolveOn_of_lists {entries : List String} (h : doc.Lists entries) :
    s.resolveOn t chain doc = Traced.fold
      (fun merged entry => (s.contribution t chain entry).map merged.merge) doc entries := by
  have hincludes : s.includes t doc = .ok (entries.flatMap (s.targets t)) :=
    includes_eq_ok_iff.mpr ⟨entries, h, expands_iff.mpr rfl⟩
  rw [resolveOn_eq, hincludes]
  dsimp only
  rw [Traced.fold_flatMap]
  simp only [fold_targets]

/-- A document can be put together if its list can be read and every entry contributes. -/
theorem exists_resolveOn_iff :
    (∃ result, (s.resolveOn t chain doc).result = .ok result) ↔
      ∃ entries, doc.Lists entries
        ∧ ∀ entry ∈ entries, ∃ part, (s.contribution t chain entry).result = .ok part := by
  constructor
  · intro h
    obtain ⟨result, hresult⟩ := h
    obtain ⟨targets, ⟨entries, hlists, -⟩, -⟩ := resolveOn_eq_ok_iff.mp hresult
    refine ⟨entries, hlists, ?_⟩
    intro entry hentry
    rw [resolveOn_of_lists hlists] at hresult
    obtain ⟨merged, next, hnext⟩ := Traced.exists_ok_of_fold hresult entry hentry
    obtain ⟨part, hpart, -⟩ := Traced.result_map_eq_ok_iff.mp hnext
    exact ⟨part, hpart⟩
  · intro h
    obtain ⟨entries, hlists, hparts⟩ := h
    rw [resolveOn_of_lists hlists]
    refine Traced.exists_ok_fold ?_ doc
    intro entry hentry merged
    obtain ⟨part, hpart⟩ := hparts entry hentry
    exact ⟨merged.merge part, Traced.result_map_eq_ok_iff.mpr ⟨part, hpart, rfl⟩⟩

theorem exists_resolveOn_of_reorders (h : doc.Reorders other)
    (hok : ∃ result, (s.resolveOn t chain doc).result = .ok result) :
    ∃ result, (s.resolveOn t chain other).result = .ok result := by
  obtain ⟨entries, hlists, hparts⟩ := exists_resolveOn_iff.mp hok
  obtain ⟨entries', hlists', hperm⟩ := h.exists_lists hlists
  refine exists_resolveOn_iff.mpr ⟨entries', hlists', ?_⟩
  intro entry hentry
  exact hparts entry (hperm.mem_iff.mpr hentry)

/-! ## What is visited -/

/-- What is visited below a list of targets is what is visited below each of them. -/
theorem Unfolds.mem_iff {targets : List Target} {visits : List Visit}
    (h : s.Unfolds t targets visits) (visit : Visit) :
    visit ∈ visits ↔ ∃ target ∈ targets, ∃ own, s.Unfolds t [target] own ∧ visit ∈ own := by
  induction h with
  | nil => simp
  | @cons path place included own targets below rest hleads hholds hown hbelow _ _ ihrest =>
    have hfirst : s.Unfolds t [.file path] (⟨path, place, included⟩ :: (below ++ [])) :=
      .cons hleads hholds hown hbelow .nil
    rw [← List.cons_append, List.mem_append, ihrest]
    constructor
    · rintro (hhere | ⟨other, hother, own', hunfolds, hmem⟩)
      · exact ⟨_, List.mem_cons_self, _, hfirst, by rwa [List.append_nil]⟩
      · exact ⟨other, List.mem_cons_of_mem _ hother, own', hunfolds, hmem⟩
    · rintro ⟨other, hother, own', hunfolds, hmem⟩
      rcases List.mem_cons.mp hother with rfl | hother
      · rw [hunfolds.unique hfirst, List.append_nil] at hmem
        exact .inl hmem
      · exact .inr ⟨other, hother, own', hunfolds, hmem⟩

/-- **The order of a list does not matter for what is visited.** -/
theorem mem_visits_of_reorders (h : doc.Reorders other) {visits visits' : List Visit}
    (horder : s.PreOrder t doc visits) (horder' : s.PreOrder t other visits') {visit : Visit}
    (hvisit : visit ∈ visits) : visit ∈ visits' := by
  obtain ⟨targets, ⟨entries, hlists, htargets⟩, hunfolds⟩ := horder
  obtain ⟨targets', ⟨entries', hlists', htargets'⟩, hunfolds'⟩ := horder'
  obtain ⟨others, hothers, hperm⟩ := h.exists_lists hlists
  have hincludes : s.Includes t other (others.flatMap (s.targets t)) :=
    ⟨others, hothers, expands_iff.mpr rfl⟩
  cases hincludes.unique ⟨entries', hlists', htargets'⟩
  cases expands_iff.mp htargets
  rw [hunfolds.mem_iff] at hvisit
  obtain ⟨target, htarget, hown⟩ := hvisit
  exact (hunfolds'.mem_iff visit).mpr ⟨target, (hperm.flatMap_right _).mem_iff.mp htarget, hown⟩

/-- Where files are apart, a name has the value that any of them gives it, or else the value
that it has in the document itself. -/
theorem get?_eq_of_reorders (h : doc.Reorders other) {visits visits' : List Visit}
    (horder : s.PreOrder t doc visits) (horder' : s.PreOrder t other visits')
    (hapart : Apart visits) {k : String} (hk : k ≠ Reserved.includes) :
    (doc.layer (documents visits)).get? k = (other.layer (documents visits')).get? k := by
  have hsame : ∀ visit, visit ∈ visits ↔ visit ∈ visits' := fun visit =>
    ⟨mem_visits_of_reorders h horder horder', mem_visits_of_reorders h.symm horder' horder⟩
  have hapart' : Apart visits' := by
    intro visit hvisit other' hother
    exact hapart visit ((hsame visit).mpr hvisit) other' ((hsame other').mpr hother)
  obtain ⟨targets, -, hunfolds⟩ := horder
  obtain ⟨targets', -, hunfolds'⟩ := horder'
  by_cases hdefined : ∃ visit ∈ visits, ∃ v, visit.document.get? k = some v
  · obtain ⟨visit, hvisit, v, hv⟩ := hdefined
    rw [get?_layer_of_apart hunfolds hapart hk hvisit hv,
      get?_layer_of_apart hunfolds' hapart' hk ((hsame visit).mp hvisit) hv]
  · have hnone : ∀ visit ∈ visits, visit.document.get? k = none := by
      intro visit hvisit
      cases hv : visit.document.get? k with
      | none => rfl
      | some v => exact absurd ⟨visit, hvisit, v, hv⟩ hdefined
    have hnone' : ∀ visit ∈ visits', visit.document.get? k = none := fun visit hvisit =>
      hnone visit ((hsame visit).mpr hvisit)
    rw [get?_layer_of_undefined hnone, get?_layer_of_undefined hnone', h.rest k hk]

theorem contains_of_reorders (h : doc.Reorders other) {visits visits' : List Visit}
    (horder : s.PreOrder t doc visits) (horder' : s.PreOrder t other visits') {k : String}
    (hk : (doc.layer (documents visits)).contains k = true) :
    (other.layer (documents visits')).contains k = true := by
  rw [Table.contains_layer] at hk ⊢
  obtain ⟨d, hd, hcontains⟩ := hk
  rcases List.mem_cons.mp hd with rfl | hd
  · exact ⟨other, List.mem_cons_self, by rwa [← h.contains_eq]⟩
  · obtain ⟨visit, hvisit, rfl⟩ := List.mem_map.mp hd
    have hmem := mem_visits_of_reorders h horder horder' hvisit
    exact ⟨visit.document, List.mem_cons_of_mem _ (List.mem_map_of_mem hmem), hcontains⟩

/-- **The order of a list of includes does not matter.** If the items of the list come in
another order, the document can still be put together or still cannot, and what is put
together has the same names. Where no name but the reserved one is defined in two different
files of the include tree, it also has the same values under them. For an entry contributes
the same whatever has been merged before, and fails in the same way or not at all. -/
theorem resolve_reordered (h : doc.Reorders other) (s : Shelf) (t : FileTree)
    (origin : Option String) :
    ((∃ result, (s.resolve t origin doc).result = .ok result)
        ↔ ∃ result, (s.resolve t origin other).result = .ok result)
      ∧ (∀ result result', (s.resolve t origin doc).result = .ok result →
          (s.resolve t origin other).result = .ok result' →
        (∀ k, result.contains k = result'.contains k)
          ∧ ∀ visits, s.PreOrder t doc visits → Apart visits →
            ∀ k, k ≠ Reserved.includes → result.get? k = result'.get? k)
      ∧ ∀ (d : Document) (entries : List String), d.Lists entries →
        s.resolve t origin d = Traced.fold (fun merged entry =>
          (s.contribution t (origin.bind t.realPlace?).toList entry).map merged.merge)
          d entries := by
  refine ⟨⟨exists_resolveOn_of_reorders h, exists_resolveOn_of_reorders h.symm⟩, ?_,
    fun d entries hlists => resolveOn_of_lists hlists⟩
  intro result result' hresult hresult'
  obtain ⟨visits, horder, rfl⟩ := preOrder_of_resolveOn hresult
  obtain ⟨visits', horder', rfl⟩ := preOrder_of_resolveOn hresult'
  refine ⟨?_, ?_⟩
  · intro k
    exact Bool.eq_iff_iff.mpr ⟨contains_of_reorders h horder horder',
      contains_of_reorders h.symm horder' horder⟩
  · intro others hothers hapart k hk
    rw [hothers.unique horder] at hapart
    exact get?_eq_of_reorders h horder horder' hapart hk

/-- An attic and a cellar. The attic has a list of its own, on which there is nothing. -/
def atticAndCellar : FileTree :=
  let attic := Json.object [(Reserved.includes, .array []), ("attic", .int 1)]
  let cellar := Json.object [("cellar", .int 2)]
  (FileTree.empty.write ["attic.json"] (Text.encode attic.render)).write ["cellar.json"]
    (Text.encode cellar.render)

/-- Whether one goes up or down first, attic and cellar are the same. -/
theorem resolve_reordered_atticAndCellar :
    (Document.listing ["attic", "cellar"]).Reorders (.listing ["cellar", "attic"])
      ∧ ∃ result result',
        (resolve {} atticAndCellar none (.listing ["attic", "cellar"])).result = .ok result
          ∧ (resolve {} atticAndCellar none (.listing ["cellar", "attic"])).result = .ok result'
          ∧ (∀ k, result.contains k = result'.contains k)
          ∧ ∀ k, k ≠ Reserved.includes → result.get? k = result'.get? k := by
  have hreorders : (Document.listing ["attic", "cellar"]).Reorders
      (.listing ["cellar", "attic"]) := {
    lists := ⟨_, _, rfl, rfl, .swap _ _ _⟩
    rest := by
      intro k hk
      simp [Document.listing, Table.get?_ofList, Table.lookup_cons_eq, hk] }
  have hok :
      (resolve {} atticAndCellar none (.listing ["attic", "cellar"])).result.isOk = true := by
    decide +kernel
  let attic : Document := .ofList [(Reserved.includes, .array []), ("attic", .int 1)]
  let cellar : Document := .ofList [("cellar", .int 2)]
  have horder : PreOrder {} atticAndCellar (.listing ["attic", "cellar"])
      [⟨"./attic.json", ["attic.json"], attic⟩, ⟨"./cellar.json", ["cellar.json"], cellar⟩] :=
    ⟨[.file "./attic.json", .file "./cellar.json"], includes_eq_ok_iff.mp rfl,
      .cons ⟨rfl, rfl⟩ ⟨_, _, rfl, rfl, rfl⟩ (includes_eq_ok_iff.mp rfl) .nil
        (.cons ⟨rfl, rfl⟩ ⟨_, _, rfl, rfl, rfl⟩ (includes_nil rfl) .nil .nil)⟩
  have hapart : Apart
      [⟨"./attic.json", ["attic.json"], attic⟩, ⟨"./cellar.json", ["cellar.json"], cellar⟩] := by
    have hattic : ∀ k, k ≠ Reserved.includes → attic.contains k = true → k = "attic" := by
      intro k hk hcontains
      have hmem := Table.mem_keys_ofList.mp (Table.contains_iff_mem_keys.mp hcontains)
      simpa [hk] using hmem
    have hcellar : ∀ k, cellar.contains k = true → k = "cellar" := by
      intro k hcontains
      have hmem := Table.mem_keys_ofList.mp (Table.contains_iff_mem_keys.mp hcontains)
      simpa using hmem
    intro visit hvisit other hother k hk hfirst hsecond
    simp only [List.mem_cons, List.not_mem_nil, or_false] at hvisit hother
    rcases hvisit with rfl | rfl <;> rcases hother with rfl | rfl
    · rfl
    · exact absurd ((hattic k hk hfirst).symm.trans (hcellar k hsecond)) (by decide)
    · exact absurd ((hcellar k hfirst).symm.trans (hattic k hk hsecond)) (by decide)
    · rfl
  obtain ⟨hiff, hagree, -⟩ := resolve_reordered hreorders {} atticAndCellar none
  cases hresult : (resolve {} atticAndCellar none (.listing ["attic", "cellar"])).result with
  | error e =>
    rw [hresult] at hok
    cases hok
  | ok result =>
    obtain ⟨result', hresult'⟩ := hiff.mp ⟨result, hresult⟩
    obtain ⟨hkeys, hvalues⟩ := hagree result result' hresult hresult'
    exact ⟨hreorders, result, result', rfl, hresult', hkeys, hvalues _ horder hapart⟩

end Shelf

end DialogueTree
