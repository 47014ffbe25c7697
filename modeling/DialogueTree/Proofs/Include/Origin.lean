import DialogueTree.Proofs.Include.Graph

/-!
# Where a document came from

A document that was read from a file is put together on a chain that begins with the place of
the file, if it is told. The same document as a text has no place, and its chain begins empty. So
an include that leads back to the file is a cycle in the one case, while in the other case the
file is entered like any other, and its includes are gone through once more.

That second round cannot do any harm. All that it comes across has been gone through in the
first round, up to the include that leads back. On a chain that is longer now this can end in
no other way than before, or in a cycle (`resolveOn_longer`). And the include that leads back is
a cycle by now. So the second round ends in a cycle, whichever of the two is met first.
-/

namespace DialogueTree

/-! ## Errors of one kind -/

/-- Errors of one kind. The error of a cycle may name another path, and so may the error of a
text that is not JSON. -/
inductive Error.Akin : Error → Error → Prop where
  | refl (e : Error) : Akin e e
  | cycle (path path' : String) : Akin (.includeCycle path) (.includeCycle path')
  | malformed (path path' : Option String) :
      Akin (.load (.malformed path)) (.load (.malformed path'))

namespace Document

/-- Two ways to a document that come to the same: to equal documents, or to errors of one
kind. -/
inductive Concurs : Except Error Document → Except Error Document → Prop where
  | ok (doc : Document) : Concurs (.ok doc) (.ok doc)
  | error {e e' : Error} : e.Akin e' → Concurs (.error e) (.error e')

theorem Concurs.of_eq {x y : Except Error Document} (h : x = y) : Concurs x y := by
  subst h
  cases x with
  | ok doc => exact .ok doc
  | error e => exact .error (.refl e)

theorem Concurs.ok_of_ok {x y : Except Error Document} {doc : Document} (h : Concurs x y)
    (hy : y = .ok doc) : x = .ok doc := by
  subst hy
  generalize hx : x = x' at h
  cases h
  rfl

/-- The way to a document ends in a cycle. -/
def Circular (x : Except Error Document) : Prop := ∃ path, x = .error (.includeCycle path)

theorem Circular.bind {x : Except Error Document} (h : Circular x)
    (f : Document → Except Error Document) : Circular (x.bind f) := by
  obtain ⟨path, rfl⟩ := h
  exact ⟨path, rfl⟩

theorem Circular.concurs {x y : Except Error Document} (hx : Circular x) (hy : Circular y) :
    Concurs x y := by
  obtain ⟨path, rfl⟩ := hx
  obtain ⟨path', rfl⟩ := hy
  exact .error (.cycle path path')

end Document

/-! ## Two chains -/

namespace Shelf

open Document (Circular)

variable {s : Shelf} {t : FileTree} {chain chain' : List Place} {doc : Document}

/-- In what way two results may come apart if a document is put together on two chains, of
which the second one has some extra places. They do when an extra place is met, which is a
cycle on the second chain only; and whatever follows, they stay apart. -/
structure Parts (s : Shelf) (t : FileTree) (extra : List Place)
    (apart : Except Error Document → Except Error Document → Prop) : Prop where
  meets : ∀ (chain : List Place) (merged : Document) {path : String} {place : Place},
    t.Leads path place → place ∈ extra → place ∉ chain →
      apart (s.includeOn t chain merged (.file path)).result (.error (.includeCycle path))
  lasts : ∀ {x y : Except Error Document} (k l : Document → Except Error Document),
    apart x y → apart (x.bind k) (y.bind l)

variable {extra : List Place} {apart : Except Error Document → Except Error Document → Prop}

/-- One include on two chains, if what lies below it is known. -/
theorem includeOn_extra (h : s.Parts t extra apart)
    (hchain : ∀ place, place ∈ chain' ↔ place ∈ chain ∨ place ∈ extra) (target : Target)
    (hbelow : ∀ path place included, t.Leads path place → place ∉ chain →
      (s.resolveOn t (place :: chain) included).result
          = (s.resolveOn t (place :: chain') included).result
        ∨ apart (s.resolveOn t (place :: chain) included).result
          (s.resolveOn t (place :: chain') included).result) (merged : Document) :
    (s.includeOn t chain merged target).result = (s.includeOn t chain' merged target).result
      ∨ apart (s.includeOn t chain merged target).result
        (s.includeOn t chain' merged target).result := by
  rcases t.misses_or_leads target with ⟨e, hmisses⟩ | ⟨path, place, rfl, hleads⟩
  · exact .inl (by rw [includeOn_of_misses hmisses, includeOn_of_misses hmisses])
  · by_cases hon' : place ∈ chain'
    · rw [includeOn_of_mem hleads hon']
      rcases (hchain place).mp hon' with hon | hextra
      · exact .inl (by rw [includeOn_of_mem hleads hon])
      · by_cases hon : place ∈ chain
        · exact .inl (by rw [includeOn_of_mem hleads hon])
        · exact .inr (h.meets chain merged hleads hextra hon)
    · have hon : place ∉ chain := fun hmem => hon' ((hchain place).mpr (.inl hmem))
      rw [includeOn_of_not_mem hleads hon, includeOn_of_not_mem hleads hon']
      cases (Source.path path).load t with
      | error e => exact .inl rfl
      | ok included =>
        rcases hbelow path place included hleads hon with hsame | hapart
        · left
          rw [Traced.result_tell, Traced.result_tell, Traced.result_map, Traced.result_map, hsame]
        · exact .inr (h.lasts (.ok ∘ merged.merge) (.ok ∘ merged.merge) hapart)

/-- **Putting a document together on two chains.** The results are the same unless an extra
place is met, and then they are apart. -/
theorem resolveOn_extra (h : s.Parts t extra apart)
    (hchain : ∀ place, place ∈ chain' ↔ place ∈ chain ∨ place ∈ extra) :
    (s.resolveOn t chain doc).result = (s.resolveOn t chain' doc).result
      ∨ apart (s.resolveOn t chain doc).result (s.resolveOn t chain' doc).result := by
  induction chain, doc using FileTree.chain_induction t generalizing chain' with
  | step chain doc ih =>
    rw [resolveOn_eq, resolveOn_eq]
    cases s.includes t doc with
    | error e => exact .inl rfl
    | ok targets =>
      refine Traced.result_fold_eq_or h.lasts ?_ doc targets
      intro merged target
      refine includeOn_extra h hchain target ?_ merged
      intro path place included hleads hoff
      refine ih path place included hleads hoff ?_
      -- both chains get longer by the same place
      intro p
      rw [List.mem_cons, List.mem_cons, hchain p, or_assoc]

/-- **On a longer chain the result is the same, or a cycle.** -/
theorem resolveOn_longer (s : Shelf) (t : FileTree) (doc : Document)
    (hchain : ∀ place ∈ chain, place ∈ chain') :
    (s.resolveOn t chain doc).result = (s.resolveOn t chain' doc).result
      ∨ Circular (s.resolveOn t chain' doc).result := by
  have hparts : s.Parts t chain' fun _ y => Circular y := {
    meets := fun _ _ path _ _ _ _ => ⟨path, rfl⟩
    lasts := fun _ l h => h.bind l }
  refine resolveOn_extra hparts ?_
  intro place
  exact ⟨.inr, fun h => h.elim (hchain place) id⟩

variable {place : Place}

/-- A file whose document ends in a cycle on a chain with the file alone does so wherever it is
entered. -/
theorem circular_includeOn (hholds : t.Holds place doc)
    (hcircular : Circular (s.resolveOn t [place] doc).result) (chain : List Place)
    (merged : Document) {path : String} (hleads : t.Leads path place) (hoff : place ∉ chain) :
    Circular (s.includeOn t chain merged (.file path)).result := by
  have hchain : ∀ p ∈ [place], p ∈ place :: chain := by
    intro p hp
    rw [List.mem_singleton.mp hp]
    exact List.mem_cons_self
  have hround : Circular (s.resolveOn t (place :: chain) doc).result := by
    rcases resolveOn_longer s t doc hchain with hsame | hcycle
    · rw [← hsame]
      exact hcircular
    · exact hcycle
  rw [includeOn_of_holds hleads hoff hholds, Traced.result_tell, Traced.result_map]
  exact hround.bind (.ok ∘ merged.merge)

/-- **Whether a document is on the chain at first makes no difference.** On a chain that begins
empty, and on one that begins with the file that holds the document, the results are equal, or
both of them are cycles. -/
theorem resolveOn_home (hholds : t.Holds place doc) :
    (s.resolveOn t [] doc).result = (s.resolveOn t [place] doc).result
      ∨ Circular (s.resolveOn t [] doc).result ∧ Circular (s.resolveOn t [place] doc).result := by
  have hchain : ∀ p ∈ [], p ∈ [place] := nofun
  rcases resolveOn_longer s t doc hchain with hsame | hcircular
  · exact .inl hsame
  · -- wherever the file is entered on the empty chain, the second round ends in a cycle
    have hparts : s.Parts t [place] fun x y => Circular x ∧ Circular y := {
      meets := by
        intro chain merged path place' hleads hextra hoff
        cases List.mem_singleton.mp hextra
        exact ⟨circular_includeOn hholds hcircular chain merged hleads hoff, path, rfl⟩
      lasts := fun k l h => ⟨h.1.bind k, h.2.bind l⟩ }
    refine resolveOn_extra hparts ?_
    intro p
    simp

end Shelf

/-! ## By path or by content -/

/-- A source that hands out some bytes: a text that they encode, or a reader that does not
fail. -/
inductive Source.Supplies (bytes : Bytes) : Source → Prop where
  | text {text : String} : Text.encode text = bytes → Supplies bytes (.text text)
  | reader : Supplies bytes (.reader bytes false)

theorem Source.Supplies.load {bytes : Bytes} {source : Source} (h : source.Supplies bytes)
    (t : FileTree) : source.load t = ofBytes bytes none ∧ source.path? = none := by
  cases h with
  | text hbytes => exact ⟨by rw [← hbytes]; rfl, rfl⟩
  | reader => exact ⟨rfl, rfl⟩

/-- A file is read like its bytes, but for the path that the error names. -/
theorem Source.load_of_read {t : FileTree} {path : String} {bytes : Bytes}
    (h : t.read path = .ok bytes) :
    (Source.path path).load t = Source.ofBytes bytes (some path) := by
  simp only [Source.load, h]

/-- What is read through a path is the content of the place to which it leads. -/
theorem FileTree.read_eq_ok_iff {t : FileTree} {path : String} {bytes : Bytes} :
    t.read path = .ok bytes ↔
      ∃ place, t.place? path = some place ∧ t.content? place = some bytes := by
  unfold read place?
  cases t.locate path with
  | error fault => simp [bind, Except.bind, Except.toOption]
  | ok place =>
    simp only [bind, Except.bind, Except.toOption, Option.some.injEq, exists_eq_left',
      content?_eq_some_iff]
    cases t.isLocked place with
    | true => simp
    | false =>
      cases t.item? place with
      | none => simp
      | some item => cases item <;> simp

/-- The real place of a path is where it leads, or it is not told. -/
theorem FileTree.realPlace?_of_place? {t : FileTree} {path : String} {place : Place}
    (h : t.place? path = some place) :
    t.realPlace? path = some place ∨ t.realPlace? path = none := by
  rw [realPlace?_eq_some_iff]
  unfold realPlace?
  cases hreal : t.canonical path with
  | error fault => exact .inr rfl
  | ok found =>
    cases (find_of_canonical hreal).symm.trans (find_of_place? h)
    exact .inl rfl

/-- What some bytes say does not depend on where they were read. -/
theorem Source.ofBytes_concurs (bytes : Bytes) (path : Option String) :
    Document.Concurs (Source.ofBytes bytes path) (Source.ofBytes bytes none) := by
  unfold Source.ofBytes
  cases Json.decode? bytes with
  | none => exact .error (.malformed path none)
  | some v => exact .of_eq rfl

namespace Document

variable {t : FileTree} {path : String} {place : Place} {bytes : Bytes} {source : Source}
  {doc : Document}

theorem result_load (settings : Settings) (t : FileTree) (source : Source) :
    (load settings t source).result = (source.load t).bind fun doc =>
      (settings.shelf.resolve t source.path? doc).result := by
  unfold load
  cases source.load t <;> rfl

/-- With or without the file that holds it, a document is put together in the same way. -/
theorem resolve_concurs (hplace : t.place? path = some place) (hholds : t.Holds place doc)
    (s : Shelf) : Concurs (s.resolve t (some path) doc).result (s.resolve t none doc).result := by
  unfold Shelf.resolve
  rw [Option.bind_some, Option.bind_none]
  rcases FileTree.realPlace?_of_place? hplace with hreal | hreal
  · rw [hreal]
    rcases Shelf.resolveOn_home hholds with hsame | ⟨hcontent, hpath⟩
    · exact .of_eq hsame.symm
    · exact hpath.concurs hcontent
  · rw [hreal]
    exact .of_eq rfl

/-- A document that leads back to the file that holds it cannot be put together. -/
theorem not_resolve_of_cycle (hplace : t.place? path = some place) (hholds : t.Holds place doc)
    {s : Shelf}
    (hcycle : Relation.TransGen (s.graph t (some path) doc).Edge (some place) (some place))
    (result : Document) : (s.resolve t (some path) doc).result ≠ .ok result := by
  intro hresult
  -- if the file is no vertex for the root document, the edges of both are still the same
  have hreaches : (s.graph t (some path) doc).Reaches (some place) := by
    rcases FileTree.realPlace?_of_place? hplace with hreal | hreal
    · have hhome : (s.graph t (some path) doc).home = some place := hreal
      unfold IncludeGraph.Reaches
      rw [hhome]
    · have hhome : (s.graph t (some path) doc).home = none := hreal
      obtain ⟨v, hedge, hback⟩ := Relation.TransGen.head'_iff.mp hcycle
      exact .head (hedge.congr (.file (by rw [hhome]; nofun) hholds) .root) hback
  have hbelow := IncludeGraph.inOrder_of_resolveOn (G := s.graph t (some path) doc)
    IncludeGraph.onWay_init.home (fun p hp => by simp [hp]) .root hresult
  exact (hbelow (some place) hreaches).2.2 hcycle

/-- **Loading by path and by content agree.** A document is loaded from a file, or else from
what is read from the file, be it as a text or through a reader. Both ways end with the same
document or with errors of one kind. In particular a document that leads back to its own file
is not loaded by its content either, although its content knows of no file. -/
theorem load_concurs (settings : Settings) (hplace : t.place? path = some place)
    (hread : t.read path = .ok bytes) (hsource : source.Supplies bytes) :
    Concurs (load settings t (.path path)).result (load settings t source).result
      ∧ ∀ doc, t.Holds place doc →
        Relation.TransGen (settings.shelf.graph t (some path) doc).Edge (some place)
          (some place) →
        ∀ result, (load settings t source).result ≠ .ok result := by
  obtain ⟨place', hplace', hcontent⟩ := FileTree.read_eq_ok_iff.mp hread
  cases hplace.symm.trans hplace'
  obtain ⟨hsupplied, hnowhere⟩ := hsource.load t
  have hload := Source.load_of_read hread
  have hbytes := Source.ofBytes_concurs bytes (some path)
  rw [result_load, result_load, hsupplied, hnowhere, hload]
  generalize hx : Source.ofBytes bytes (some path) = x at hbytes
  generalize Source.ofBytes bytes none = y at hbytes
  cases hbytes with
  | error hakin => exact ⟨.error hakin, fun _ _ _ => nofun⟩
  | ok doc =>
    obtain ⟨members, hdecode, hdoc⟩ := Source.ofBytes_eq_ok_iff.mp hx
    have hholds : t.Holds place doc := ⟨bytes, members, hcontent, hdecode, hdoc⟩
    have hconcurs := resolve_concurs hplace hholds settings.shelf
    refine ⟨hconcurs, ?_⟩
    intro doc' hholds' hcycle result hresult
    cases hholds.unique hholds'
    exact not_resolve_of_cycle hplace hholds hcycle result (hconcurs.ok_of_ok hresult)

/-- The text of an inn that includes a yard. -/
def innText : String := (Json.object [(Reserved.includes, .array [.string "yard"])]).render

/-- The inn, and a yard that includes it in turn. -/
def innAndYard : FileTree :=
  let yard := Json.object [(Reserved.includes, .array [.string "inn"])]
  (FileTree.empty.write ["inn.json"] (Text.encode innText)).write ["yard.json"]
    (Text.encode yard.render)

/-- The path that is named if the way to a document ends in a cycle. -/
def cycleNamed? : Except Error Document → Option String
  | .ok _ => none
  | .error (.includeCycle path) => some path
  | .error _ => none

/-- Who comes to the inn as a file is back at the inn from the yard. Who comes to the inn as a
text goes into the inn once more, and is back at the yard. -/
theorem load_concurs_innAndYard :
    (innAndYard.place? "inn.json" = some ["inn.json"]
        ∧ innAndYard.read "inn.json" = .ok (Text.encode innText))
      ∧ cycleNamed? (load {} innAndYard (.path "inn.json")).result = some "./inn.json"
      ∧ cycleNamed? (load {} innAndYard (.text innText)).result = some "./yard.json"
      ∧ Concurs (load {} innAndYard (.path "inn.json")).result
        (load {} innAndYard (.text innText)).result
      ∧ ∀ result, (load {} innAndYard (.text innText)).result ≠ .ok result := by
  have hplace : innAndYard.place? "inn.json" = some ["inn.json"] := by rfl
  have hread : innAndYard.read "inn.json" = .ok (Text.encode innText) := by rfl
  obtain ⟨hconcurs, hnever⟩ := load_concurs {} hplace hread (.text rfl)
  -- from the inn to the yard, and back
  have hinn : innAndYard.Holds ["inn.json"] (.listing ["yard"]) := ⟨_, _, rfl, rfl, rfl⟩
  have hyard : innAndYard.Holds ["yard.json"] (.listing ["inn"]) := ⟨_, _, rfl, rfl, rfl⟩
  have hout : (Shelf.graph {} innAndYard (some "inn.json") (.listing ["yard"])).Edge
      (some ["inn.json"]) (some ["yard.json"]) :=
    ⟨.listing ["yard"], [.file "./yard.json"], "./yard.json", ["yard.json"], .root,
      Shelf.includes_eq_ok_iff.mp rfl, List.mem_singleton.mpr rfl, ⟨rfl, rfl⟩, rfl⟩
  have hback : (Shelf.graph {} innAndYard (some "inn.json") (.listing ["yard"])).Edge
      (some ["yard.json"]) (some ["inn.json"]) :=
    ⟨.listing ["inn"], [.file "./inn.json"], "./inn.json", ["inn.json"], .file (by decide) hyard,
      Shelf.includes_eq_ok_iff.mp rfl, List.mem_singleton.mpr rfl, ⟨rfl, rfl⟩, rfl⟩
  exact ⟨⟨hplace, hread⟩, by decide +kernel, by decide +kernel, hconcurs,
    hnever _ hinn (.tail (.single hout) hback)⟩

end Document

end DialogueTree
