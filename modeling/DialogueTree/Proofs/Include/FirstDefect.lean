import DialogueTree.Proofs.FileTree.Hidden
import DialogueTree.Proofs.Include.PreOrder
import Mathlib.Data.List.Lex
import Mathlib.Order.Interval.Set.Defs

/-!
# The first defect of an include tree

A document includes files, which include files in turn. In the tree that comes of this, a target
has an address: the number of a target of the root document, then the number of a target of the
file that this one leads to, and so on down. Addresses are in the order of a dictionary, and
this is depth-first pre-order: an address comes before all addresses below it, and apart from
that the first number that differs counts.

The tree is that of the lists alone. It does not stop at defects, and it has no end where a file
lies below itself. Resolving goes through it in pre-order up to the first defect, whose error it
reports, and tells of each file on the way as it goes into it; without a defect it tells of all
files of the tree.

What is explored by a part of the resolver is a set of addresses (`Explores`). Parts that are
done one after the other explore sets of which one lies before the other, so what they tell and
what they find first can be put together (`Explores.bind`).
-/

namespace DialogueTree

/-- What may be wrong with a target inside of files at the places `above`, and the error for it. It
leads nowhere, since its directory is not listed, or there is no regular file, or the real place of
the file is not told; or it leads to a file at one of these places; or to one that holds no
document; or to one with a document whose includes are no list of strings. -/
inductive FileTree.Defect (t : FileTree) (above : List Place) : Target → Error → Prop where
  | misses {target : Target} {e : Error} : t.Misses target e → Defect t above target e
  | cycle {path : String} {place : Place} :
      t.Leads path place → place ∈ above → Defect t above (.file path) (.includeCycle path)
  | unreadable {path : String} {place : Place} {fault : LoadFault} :
      t.Leads path place → place ∉ above → t.Withholds path place fault →
      Defect t above (.file path) (.load fault)
  | mislisted {path : String} {place : Place} {included : Document} {fault : NodeFault} :
      t.Leads path place → place ∉ above → t.Holds place included → included.Mislists fault →
      Defect t above (.file path) (.malformedNode Reserved.includes fault)

/-- The checks are made in this order, so at most one of them finds something. -/
theorem FileTree.Defect.unique {t : FileTree} {above : List Place} {target : Target} {e e' : Error}
    (h : t.Defect above target e) (h' : t.Defect above target e') : e = e' := by
  cases h with
  | misses hmisses =>
    cases h' with
    | misses hmisses' => exact hmisses.unique hmisses'
    | cycle hleads _ | unreadable hleads _ _ | mislisted hleads _ _ _ =>
      exact absurd hleads (hmisses.not_leads _)
  | cycle hleads hon =>
    cases h' with
    | misses hmisses => exact absurd hleads (hmisses.not_leads _)
    | cycle _ _ => rfl
    | unreadable hleads' hoff _ | mislisted hleads' hoff _ _ =>
      cases hleads.unique hleads'
      exact absurd hon hoff
  | unreadable hleads hoff hwithholds =>
    cases h' with
    | misses hmisses => exact absurd hleads (hmisses.not_leads _)
    | cycle hleads' hon =>
      cases hleads.unique hleads'
      exact absurd hon hoff
    | unreadable hleads' _ hwithholds' =>
      cases hleads.unique hleads'
      rw [FileTree.Withholds.unique hleads hwithholds hwithholds']
    | mislisted hleads' _ hholds _ =>
      cases hleads.unique hleads'
      exact absurd hholds (hwithholds.not_holds _)
  | mislisted hleads hoff hholds hmislists =>
    cases h' with
    | misses hmisses => exact absurd hleads (hmisses.not_leads _)
    | cycle hleads' hon =>
      cases hleads.unique hleads'
      exact absurd hon hoff
    | unreadable hleads' _ hwithholds =>
      cases hleads.unique hleads'
      exact absurd hholds (hwithholds.not_holds _)
    | mislisted hleads' _ hholds' hmislists' =>
      cases hleads.unique hleads'
      cases hholds.unique hholds'
      rw [hmislists.unique hmislists']

namespace Shelf

/-- A target at an address of the include tree of a document. The document is inside of files at
the places of the chain, and the target inside of files at the places `above`. -/
inductive Occurs (s : Shelf) (t : FileTree) :
    List Place → Document → List Nat → List Place → Target → Prop where
  | here {chain : List Place} {doc : Document} {targets : List Target} {i : Nat}
      {target : Target} :
      s.Includes t doc targets → targets[i]? = some target →
      Occurs s t chain doc [i] chain target
  | inside {chain above : List Place} {doc included : Document} {targets : List Target} {i : Nat}
      {path : String} {inner : Target} {place : Place} {address : List Nat} :
      s.Includes t doc targets → targets[i]? = some (.file path) →
      t.Leads path place → t.Holds place included →
      Occurs s t (place :: chain) included address above inner →
      Occurs s t chain doc (i :: address) above inner

/-- A defect at an address. The empty address is that of the document itself, with which
nothing but its list may be wrong. -/
inductive DefectAt (s : Shelf) (t : FileTree) (chain : List Place) (doc : Document) :
    List Nat → Error → Prop where
  | root {fault : NodeFault} :
      doc.Mislists fault → DefectAt s t chain doc [] (.malformedNode Reserved.includes fault)
  | target {address : List Nat} {above : List Place} {target : Target} {e : Error} :
      s.Occurs t chain doc address above target → t.Defect above target e →
      DefectAt s t chain doc address e

/-- The target at an address is a file whose real place is told and is none of those that it lies
inside of. -/
def EntersAt (s : Shelf) (t : FileTree) (chain : List Place) (doc : Document)
    (address : List Nat) (path : String) : Prop :=
  ∃ above place, s.Occurs t chain doc address above (.file path) ∧ t.Leads path place
    ∧ place ∉ above

/-- The events tell of each file that can be gone into at an address of the scope, in the order
of the addresses. -/
def Tells (s : Shelf) (t : FileTree) (chain : List Place) (doc : Document)
    (scope : Set (List Nat)) (events : List Event) : Prop :=
  ∃ entered : List (List Nat × String),
    entered.Pairwise (fun a b => a.1 < b.1)
      ∧ (∀ address path, (address, path) ∈ entered ↔
        address ∈ scope ∧ s.EntersAt t chain doc address path)
      ∧ events = entered.map fun e => .including e.2

/-- The first defect in a scope. -/
structure FirstDefect (s : Shelf) (t : FileTree) (chain : List Place) (doc : Document)
    (scope : Set (List Nat)) (address : List Nat) (e : Error) : Prop where
  mem : address ∈ scope
  defect : s.DefectAt t chain doc address e
  least : ∀ other ∈ scope, ∀ e', s.DefectAt t chain doc other e' → address ≤ other

/-- Something goes through a scope up to the first defect in it. -/
structure Explores (s : Shelf) (t : FileTree) (chain : List Place) (doc : Document)
    (scope : Set (List Nat)) {β : Type} (x : Traced β) : Prop where
  ok : ∀ b, x.result = .ok b →
    (∀ address ∈ scope, ∀ e, ¬ s.DefectAt t chain doc address e)
      ∧ s.Tells t chain doc scope x.events
  error : ∀ e, x.result = .error e → ∃ address, s.FirstDefect t chain doc scope address e
    ∧ s.Tells t chain doc (scope ∩ Set.Iic address) x.events

variable {s : Shelf} {t : FileTree} {chain : List Place} {doc : Document}

/-! ## The order of addresses -/

theorem nil_le (address : List Nat) : [] ≤ address := not_lt.mp (List.not_lt_nil address)

theorem cons_lt_cons_iff {i : Nat} {a b : List Nat} : i :: a < i :: b ↔ a < b := by simp

theorem cons_le_cons_iff {i : Nat} {a b : List Nat} : i :: a ≤ i :: b ↔ a ≤ b := by
  rw [← not_lt, ← not_lt, cons_lt_cons_iff]

theorem Occurs.unique {address : List Nat} {above other : List Place} {target target' : Target}
    (h : s.Occurs t chain doc address above target)
    (h' : s.Occurs t chain doc address other target') : above = other ∧ target = target' := by
  induction h with
  | here htargets htarget =>
    cases h' with
    | here htargets' htarget' =>
      cases htargets.unique htargets'
      exact ⟨rfl, Option.some.inj (htarget.symm.trans htarget')⟩
    | inside _ _ _ _ hinner => nomatch hinner
  | inside htargets htarget hleads hholds hinner ih =>
    cases h' with
    | here _ _ => nomatch hinner
    | inside htargets' htarget' hleads' hholds' hinner' =>
      cases htargets.unique htargets'
      cases htarget.symm.trans htarget'
      cases hleads.unique hleads'
      cases hholds.unique hholds'
      exact ih hinner'

/-- **There is one error for what is wrong at an address.** -/
theorem DefectAt.unique {address : List Nat} {e e' : Error}
    (h : s.DefectAt t chain doc address e) (h' : s.DefectAt t chain doc address e') : e = e' := by
  cases h with
  | root hmislists =>
    cases h' with
    | root hmislists' => rw [hmislists.unique hmislists']
    | target hoccurs' _ => nomatch hoccurs'
  | target hoccurs hdefect =>
    cases h' with
    | root _ => nomatch hoccurs
    | target hoccurs' hdefect' =>
      obtain ⟨rfl, rfl⟩ := hoccurs.unique hoccurs'
      exact hdefect.unique hdefect'

theorem FirstDefect.unique {scope : Set (List Nat)} {address other : List Nat} {e e' : Error}
    (h : s.FirstDefect t chain doc scope address e)
    (h' : s.FirstDefect t chain doc scope other e') : address = other :=
  le_antisymm (h.least other h'.mem e' h'.defect) (h'.least address h.mem e h.defect)

/-! ## Scopes one after the other -/

/-- All addresses of the one scope come before all of the other. -/
def Before (scope scope' : Set (List Nat)) : Prop := ∀ a ∈ scope, ∀ b ∈ scope', a < b

section Before

variable {scope scope' : Set (List Nat)} {address : List Nat}

theorem Before.inter_Iic_left (h : Before scope scope') (haddress : address ∈ scope) :
    (scope ∪ scope') ∩ Set.Iic address = scope ∩ Set.Iic address := by
  ext other
  constructor
  · rintro ⟨hother | hother, hle⟩
    · exact ⟨hother, hle⟩
    · exact absurd (h address haddress other hother) (not_lt.mpr hle)
  · rintro ⟨hother, hle⟩
    exact ⟨.inl hother, hle⟩

theorem Before.inter_Iic_right (h : Before scope scope') (haddress : address ∈ scope') :
    (scope ∪ scope') ∩ Set.Iic address = scope ∪ (scope' ∩ Set.Iic address) := by
  ext other
  constructor
  · rintro ⟨hother | hother, hle⟩
    · exact .inl hother
    · exact .inr ⟨hother, hle⟩
  · rintro (hother | ⟨hother, hle⟩)
    · exact ⟨.inl hother, (h other hother address haddress).le⟩
    · exact ⟨.inr hother, hle⟩

theorem Tells.append {events events' : List Event} (h : s.Tells t chain doc scope events)
    (h' : s.Tells t chain doc scope' events') (hbefore : Before scope scope') :
    s.Tells t chain doc (scope ∪ scope') (events ++ events') := by
  obtain ⟨entered, hsorted, hmem, rfl⟩ := h
  obtain ⟨entered', hsorted', hmem', rfl⟩ := h'
  refine ⟨entered ++ entered', ?_, ?_, (List.map_append).symm⟩
  · refine List.pairwise_append.mpr ⟨hsorted, hsorted', ?_⟩
    intro a ha b hb
    exact hbefore a.1 ((hmem a.1 a.2).mp ha).1 b.1 ((hmem' b.1 b.2).mp hb).1
  · intro address path
    rw [List.mem_append, hmem, hmem', Set.mem_union, or_and_right]

theorem FirstDefect.union_left {e : Error} (h : s.FirstDefect t chain doc scope address e)
    (hbefore : Before scope scope') : s.FirstDefect t chain doc (scope ∪ scope') address e where
  mem := .inl h.mem
  defect := h.defect
  least := by
    rintro other (hother | hother) e' he'
    · exact h.least other hother e' he'
    · exact (hbefore address h.mem other hother).le

theorem FirstDefect.union_right {e : Error} (h : s.FirstDefect t chain doc scope' address e)
    (hnone : ∀ other ∈ scope, ∀ e, ¬ s.DefectAt t chain doc other e) :
    s.FirstDefect t chain doc (scope ∪ scope') address e where
  mem := .inr h.mem
  defect := h.defect
  least := by
    rintro other (hother | hother) e' he'
    · exact absurd he' (hnone other hother e')
    · exact h.least other hother e' he'

/-- **One thing after the other.** What is found first in the scope that lies before the other
one is found first in both. -/
theorem Explores.bind {α β : Type} {x : Traced α} {f : α → Traced β}
    (hx : s.Explores t chain doc scope x)
    (hf : ∀ a, x.result = .ok a → s.Explores t chain doc scope' (f a))
    (hbefore : Before scope scope') : s.Explores t chain doc (scope ∪ scope') (x.bind f) := by
  obtain ⟨events, result⟩ := x
  cases result with
  | error e =>
    obtain ⟨address, hfirst, htells⟩ := hx.error e rfl
    refine ⟨nofun, ?_⟩
    intro e' he'
    cases he'
    refine ⟨address, hfirst.union_left hbefore, ?_⟩
    rw [hbefore.inter_Iic_left hfirst.mem]
    exact htells
  | ok a =>
    obtain ⟨hnone, htells⟩ := hx.ok a rfl
    obtain ⟨hok, herror⟩ := hf a rfl
    refine ⟨?_, ?_⟩
    · intro b hb
      obtain ⟨hnone', htells'⟩ := hok b hb
      refine ⟨?_, htells.append htells' hbefore⟩
      rintro address (haddress | haddress)
      · exact hnone address haddress
      · exact hnone' address haddress
    · intro e he
      obtain ⟨address, hfirst, htells'⟩ := herror e he
      refine ⟨address, hfirst.union_right hnone, ?_⟩
      rw [hbefore.inter_Iic_right hfirst.mem]
      refine htells.append htells' ?_
      intro a ha b hb
      exact hbefore a ha b hb.1

end Before

/-! ## Addresses below an item of the list -/

theorem Occurs.ne_nil {address : List Nat} {above : List Place} {target : Target}
    (h : s.Occurs t chain doc address above target) : address ≠ [] := by
  cases h <;> exact List.cons_ne_nil _ _

theorem EntersAt.ne_nil {address : List Nat} {path : String}
    (h : s.EntersAt t chain doc address path) : address ≠ [] := by
  obtain ⟨above, place, hoccurs, -⟩ := h
  exact hoccurs.ne_nil

section Item

variable {targets : List Target} {i : Nat} {target : Target}

/-- An address below an item of the list is that of the item, or one of the document of the
file to which the item leads. -/
theorem occurs_cons_iff {rest : List Nat} {above : List Place} {inner : Target}
    (htargets : s.Includes t doc targets) (htarget : targets[i]? = some target) :
    s.Occurs t chain doc (i :: rest) above inner ↔
      (rest = [] ∧ above = chain ∧ inner = target) ∨
      ∃ path place included, target = .file path ∧ t.Leads path place ∧ t.Holds place included
        ∧ s.Occurs t (place :: chain) included rest above inner := by
  constructor
  · intro h
    cases h with
    | here htargets' htarget' =>
      cases htargets.unique htargets'
      cases htarget.symm.trans htarget'
      exact .inl ⟨rfl, rfl, rfl⟩
    | inside htargets' htarget' hleads hholds hinner =>
      cases htargets.unique htargets'
      cases htarget.symm.trans htarget'
      exact .inr ⟨_, _, _, rfl, hleads, hholds, hinner⟩
  · rintro (⟨rfl, rfl, rfl⟩ | ⟨path, place, included, rfl, hleads, hholds, hinner⟩)
    · exact .here htargets htarget
    · exact .inside htargets htarget hleads hholds hinner

theorem entersAt_item_iff {inner : String} (htargets : s.Includes t doc targets)
    (htarget : targets[i]? = some target) :
    s.EntersAt t chain doc [i] inner ↔
      target = .file inner ∧ ∃ place, t.Leads inner place ∧ place ∉ chain := by
  constructor
  · rintro ⟨above, place, hoccurs, hleads, hoff⟩
    rcases (occurs_cons_iff htargets htarget).mp hoccurs with
      ⟨-, rfl, rfl⟩ | ⟨_, _, _, -, -, -, hinner⟩
    · exact ⟨rfl, place, hleads, hoff⟩
    · exact absurd rfl hinner.ne_nil
  · rintro ⟨rfl, place, hleads, hoff⟩
    exact ⟨chain, place, .here htargets htarget, hleads, hoff⟩

section Inside

variable {path : String} {place : Place} {included : Document}

theorem entersAt_cons_iff {rest : List Nat} {inner : String} (htargets : s.Includes t doc targets)
    (htarget : targets[i]? = some (.file path)) (hleads : t.Leads path place) (hoff : place ∉ chain)
    (hholds : t.Holds place included) :
    s.EntersAt t chain doc (i :: rest) inner ↔
      (rest = [] ∧ inner = path) ∨ s.EntersAt t (place :: chain) included rest inner := by
  constructor
  · rintro ⟨above, other, hoccurs, hother, hnot⟩
    rcases (occurs_cons_iff htargets htarget).mp hoccurs with
      ⟨rfl, -, heq⟩ | ⟨path', place', included', heq, hleads', hholds', hinner⟩
    · cases heq
      exact .inl ⟨rfl, rfl⟩
    · cases heq
      cases hleads.unique hleads'
      cases hholds.unique hholds'
      exact .inr ⟨above, other, hinner, hother, hnot⟩
  · rintro (⟨rfl, rfl⟩ | ⟨above, other, hinner, hother, hnot⟩)
    · exact ⟨chain, place, .here htargets htarget, hleads, hoff⟩
    · exact ⟨above, other, .inside htargets htarget hleads hholds hinner, hother, hnot⟩

/-- What is wrong below an item is wrong with the document of its file. -/
theorem defectAt_cons_iff {rest : List Nat} {e : Error} (htargets : s.Includes t doc targets)
    (htarget : targets[i]? = some (.file path)) (hleads : t.Leads path place) (hoff : place ∉ chain)
    (hholds : t.Holds place included) :
    s.DefectAt t chain doc (i :: rest) e ↔ s.DefectAt t (place :: chain) included rest e := by
  constructor
  · rintro (_ | ⟨hoccurs, hdefect⟩)
    rcases (occurs_cons_iff htargets htarget).mp hoccurs with
      ⟨rfl, rfl, rfl⟩ | ⟨path', place', included', heq, hleads', hholds', hinner⟩
    · -- with the item itself, nothing but the list of its document may be wrong
      cases hdefect with
      | misses hmisses => exact absurd hleads (hmisses.not_leads place)
      | cycle hleads' hon =>
        cases hleads.unique hleads'
        exact absurd hon hoff
      | unreadable hleads' _ hwithholds =>
        cases hleads.unique hleads'
        exact absurd hholds (hwithholds.not_holds included)
      | mislisted hleads' _ hholds' hmislists =>
        cases hleads.unique hleads'
        cases hholds.unique hholds'
        exact .root hmislists
    · cases heq
      cases hleads.unique hleads'
      cases hholds.unique hholds'
      exact .target hinner hdefect
  · rintro (hmislists | ⟨hinner, hdefect⟩)
    · exact .target (.here htargets htarget) (.mislisted hleads hoff hholds hmislists)
    · exact .target (.inside htargets htarget hleads hholds hinner) hdefect

theorem Tells.inside {scope : Set (List Nat)} {events : List Event}
    (h : s.Tells t (place :: chain) included scope events) (hroot : [] ∈ scope)
    (htargets : s.Includes t doc targets) (htarget : targets[i]? = some (.file path))
    (hleads : t.Leads path place) (hoff : place ∉ chain) (hholds : t.Holds place included) :
    s.Tells t chain doc ((i :: ·) '' scope) (.including path :: events) := by
  obtain ⟨entered, hsorted, hmem, rfl⟩ := h
  refine ⟨([i], path) :: entered.map (fun e => (i :: e.1, e.2)), ?_, ?_, ?_⟩
  · refine List.pairwise_cons.mpr ⟨?_, List.pairwise_map.mpr ?_⟩
    · -- nothing in the document of the file is at the empty address
      intro e he
      obtain ⟨⟨address, inner⟩, hin, rfl⟩ := List.mem_map.mp he
      have hne := ((hmem address inner).mp hin).2.ne_nil
      exact cons_lt_cons_iff.mpr (lt_of_le_of_ne (nil_le address) hne.symm)
    · exact hsorted.imp cons_lt_cons_iff.mpr
  · intro address inner
    constructor
    · intro hin
      rcases List.mem_cons.mp hin with heq | hin
      · cases heq
        have hitem := (entersAt_item_iff htargets htarget).mpr ⟨rfl, place, hleads, hoff⟩
        exact ⟨⟨[], hroot, rfl⟩, hitem⟩
      · obtain ⟨⟨rest, inner'⟩, hmember, heq⟩ := List.mem_map.mp hin
        cases heq
        obtain ⟨hscope, henters⟩ := (hmem rest inner').mp hmember
        have hbelow := (entersAt_cons_iff htargets htarget hleads hoff hholds).mpr (.inr henters)
        exact ⟨⟨rest, hscope, rfl⟩, hbelow⟩
    · rintro ⟨⟨rest, hscope, rfl⟩, henters⟩
      rcases (entersAt_cons_iff htargets htarget hleads hoff hholds).mp henters with
        ⟨rfl, rfl⟩ | henters
      · exact List.mem_cons_self
      · have hin := (hmem rest inner).mpr ⟨hscope, henters⟩
        exact List.mem_cons_of_mem _ (List.mem_map.mpr ⟨(rest, inner), hin, rfl⟩)
  · simp

/-- **Going into a file and through its document is going through all below the item.** -/
theorem Explores.inside {β γ : Type} {x : Traced β} {f : β → γ}
    (h : s.Explores t (place :: chain) included Set.univ x) (htargets : s.Includes t doc targets)
    (htarget : targets[i]? = some (.file path)) (hleads : t.Leads path place) (hoff : place ∉ chain)
    (hholds : t.Holds place included) :
    s.Explores t chain doc (Set.range (i :: ·)) (.tell (.including path) (x.map f)) where
  ok := by
    intro c hc
    rw [Traced.result_tell, Traced.result_map_eq_ok_iff] at hc
    obtain ⟨b, hb, -⟩ := hc
    obtain ⟨hnone, htells⟩ := h.ok b hb
    refine ⟨?_, ?_⟩
    · rintro _ ⟨rest, rfl⟩ e he
      exact hnone rest trivial e ((defectAt_cons_iff htargets htarget hleads hoff hholds).mp he)
    · rw [← Set.image_univ]
      exact htells.inside trivial htargets htarget hleads hoff hholds
  error := by
    intro e he
    rw [Traced.result_tell, Traced.result_map_eq_error_iff] at he
    obtain ⟨address, hfirst, htells⟩ := h.error e he
    have hscope : Set.range (i :: ·) ∩ Set.Iic (i :: address)
        = (i :: ·) '' (Set.univ ∩ Set.Iic address) := by
      ext other
      constructor
      · rintro ⟨⟨rest, rfl⟩, hle⟩
        exact ⟨rest, ⟨trivial, cons_le_cons_iff.mp hle⟩, rfl⟩
      · rintro ⟨rest, ⟨-, hle⟩, rfl⟩
        exact ⟨⟨rest, rfl⟩, cons_le_cons_iff.mpr hle⟩
    refine ⟨i :: address, ⟨⟨address, rfl⟩, ?_, ?_⟩, ?_⟩
    · exact (defectAt_cons_iff htargets htarget hleads hoff hholds).mpr hfirst.defect
    · rintro _ ⟨rest, rfl⟩ e' he'
      have hbelow := (defectAt_cons_iff htargets htarget hleads hoff hholds).mp he'
      exact cons_le_cons_iff.mpr (hfirst.least rest trivial e' hbelow)
    · rw [hscope]
      exact htells.inside ⟨trivial, nil_le address⟩ htargets htarget hleads hoff hholds

end Inside

/-! ## The resolver -/

end Item

end Shelf

end DialogueTree
