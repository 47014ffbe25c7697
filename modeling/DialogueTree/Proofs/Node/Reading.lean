import DialogueTree.Proofs.Node.Directives

/-!
# What is read from JSON values

A field of a node is read by a function that succeeds on the values of one shape and fails on
all others. What is said here of each of them is that shape: a string, a list of strings, an
object all of whose values are strings. In this way a successful reading is turned into an
equation for the value, and is not looked into any more.

The members of an object are looked up in the table that is made of them. What is found there
is the last member of a name (`Json.Member`).
-/

namespace DialogueTree

/-- Something that is done in two parts succeeds exactly if both parts do. -/
theorem bind_eq_ok_iff {ε α β : Type} {x : Except ε α} {f : α → Except ε β} {b : β} :
    (x >>= f) = .ok b ↔ ∃ a, x = .ok a ∧ f a = .ok b := by
  constructor
  · exact exists_ok_of_bind
  · intro h
    obtain ⟨a, rfl, hb⟩ := h
    exact hb

/-- **A list is read item by item.** If reading undoes `g`, reading a list undoes `g` at every
item. -/
theorem mapM_eq_ok_iff {ε α β : Type} {f : α → Except ε β} {g : β → α}
    (hread : ∀ {a b}, f a = .ok b ↔ a = g b) {as : List α} {bs : List β} :
    as.mapM f = .ok bs ↔ as = bs.map g := by
  induction as generalizing bs with
  | nil =>
    cases bs with
    | nil => exact ⟨fun _ => rfl, fun _ => rfl⟩
    | cons b bs => exact ⟨nofun, nofun⟩
  | cons a as ih =>
    rw [List.mapM_cons, bind_eq_ok_iff]
    constructor
    · intro h
      obtain ⟨b, hfirst, hrest⟩ := h
      obtain ⟨rest, hread', heq⟩ := bind_eq_ok_iff.mp hrest
      cases heq
      rw [List.map_cons, hread.mp hfirst, ih.mp hread']
    · intro h
      cases bs with
      | nil => cases h
      | cons b bs =>
        obtain ⟨hfirst, hrest⟩ := List.cons_eq_cons.mp h
        exact ⟨b, hread.mpr hfirst, bind_eq_ok_iff.mpr ⟨bs, ih.mpr hrest, rfl⟩⟩

/-! ## Tables of values -/

namespace Table

variable {α β : Type}

/-- The table with other values under the same keys. -/
def map (f : α → β) (t : Table α) : Table β where
  entries := t.entries.map fun e => (e.1, f e.2)
  sorted := List.pairwise_map.mpr t.sorted

@[simp] theorem get?_map (f : α → β) (t : Table α) (k : String) :
    (t.map f).get? k = (t.get? k).map f := by
  show (t.entries.map fun e => (e.1, f e.2)).lookup k = (t.entries.lookup k).map f
  induction t.entries with
  | nil => rfl
  | cons e rest ih =>
    rw [List.map_cons, lookup_cons_eq, lookup_cons_eq, ih]
    by_cases h : k = e.1 <;> simp [h]

theorem lookup_of_mem {es : List (String × α)} (hsorted : es.Pairwise (fun a b => a.1 < b.1))
    {k : String} {v : α} (h : (k, v) ∈ es) : es.lookup k = some v := by
  induction es with
  | nil => cases h
  | cons e rest ih =>
    obtain ⟨hless, hrest⟩ := List.pairwise_cons.mp hsorted
    rw [lookup_cons_eq]
    rcases List.mem_cons.mp h with rfl | hmem
    · rw [if_pos rfl]
    · have hne : k ≠ e.1 := fun heq => String.lt_irrefl e.1 (heq ▸ hless (k, v) hmem)
      rw [if_neg hne, ih hrest hmem]

/-- What is bound are the entries. -/
theorem get?_eq_some_iff {t : Table α} {k : String} {v : α} :
    t.get? k = some v ↔ (k, v) ∈ t.entries := by
  constructor
  · intro h
    obtain ⟨before, behind, hentries, -⟩ := List.lookup_eq_some_iff.mp h
    rw [hentries]
    simp
  · exact lookup_of_mem t.sorted

end Table

namespace Json

/-- An object has a member of a name, which is the last one of that name. -/
def Member (members : List (String × Json)) (name : String) (v : Json) : Prop :=
  ∃ before behind, members = before ++ (name, v) :: behind ∧ ∀ e ∈ behind, e.1 ≠ name

theorem member_iff {members : List (String × Json)} {name : String} {v : Json} :
    Member members name v ↔ (Table.ofList members).get? name = some v := by
  rw [Table.get?_ofList, List.lookup_eq_some_iff]
  constructor
  · intro h
    obtain ⟨before, behind, rfl, hlast⟩ := h
    refine ⟨behind.reverse, before.reverse, by simp, ?_⟩
    intro e he
    have hne := hlast e (List.mem_reverse.mp he)
    simpa using hne.symm
  · intro h
    obtain ⟨behind, before, hturned, hlast⟩ := h
    refine ⟨before.reverse, behind.reverse, ?_, ?_⟩
    · have hmembers := congrArg List.reverse hturned
      simpa using hmembers
    · intro e he
      have hne := hlast e (List.mem_reverse.mp he)
      exact fun heq => by simp [heq] at hne

theorem forall_not_member_iff {members : List (String × Json)} {name : String} :
    (∀ v, ¬ Member members name v) ↔ (Table.ofList members).get? name = none := by
  simp only [member_iff, Option.eq_none_iff_forall_ne_some]

/-! ## Values by their shape -/

theorem readText_eq_ok_iff {v : Json} {s : String} : v.readText = .ok s ↔ v = .string s := by
  cases v with
  | string s' => exact ⟨fun h => by cases h; rfl, fun h => by cases h; rfl⟩
  | _ => exact ⟨nofun, nofun⟩

theorem readTexts_eq_ok_iff {v : Json} {lines : List String} :
    v.readTexts = .ok lines ↔ v = .array (lines.map .string) := by
  cases v with
  | array items =>
    rw [array.injEq]
    exact mapM_eq_ok_iff readText_eq_ok_iff
  | _ => exact ⟨nofun, nofun⟩

theorem readMembers_eq_ok_iff {members : List (String × Json)} {texts : List (String × String)} :
    readMembers members = .ok texts ↔ members = texts.map fun e => (e.1, .string e.2) := by
  induction members generalizing texts with
  | nil =>
    cases texts with
    | nil => exact ⟨fun _ => rfl, fun _ => rfl⟩
    | cons e texts => exact ⟨nofun, nofun⟩
  | cons member members ih =>
    obtain ⟨key, v⟩ := member
    rw [readMembers, bind_eq_ok_iff]
    constructor
    · intro h
      obtain ⟨s, hfirst, hrest⟩ := h
      obtain ⟨rest, hread, heq⟩ := bind_eq_ok_iff.mp hrest
      cases heq
      rw [List.map_cons, readText_eq_ok_iff.mp hfirst, ih.mp hread]
    · intro h
      cases texts with
      | nil => cases h
      | cons e texts =>
        cases h
        exact ⟨e.2, rfl, bind_eq_ok_iff.mpr ⟨texts, ih.mpr rfl, rfl⟩⟩

/-- **A table of texts is read from an object whose members are these texts.** -/
theorem readTextTable_eq_ok_iff {v : Json} {options : Table String} :
    v.readTextTable = .ok options ↔
      ∃ members, v = .object members ∧ Table.ofList members = options.map .string := by
  cases v with
  | object members =>
    show (readMembers (Table.ofList members).entries).map Table.ofList = .ok options ↔ _
    constructor
    · intro h
      refine ⟨members, rfl, ?_⟩
      cases hread : readMembers (Table.ofList members).entries with
      | error fault =>
        rw [hread] at h
        cases h
      | ok texts =>
        rw [hread] at h
        cases h
        -- the texts have the keys of the members, so they are in order
        have hentries := readMembers_eq_ok_iff.mp hread
        have hsorted := (Table.ofList members).sorted
        rw [hentries, List.pairwise_map] at hsorted
        rw [show Table.ofList texts = ⟨texts, hsorted⟩ from Table.ofList_entries ⟨texts, hsorted⟩]
        exact Table.ext_get? fun k => by unfold Table.get?; rw [hentries]; rfl
    · intro h
      obtain ⟨_, hobject, htable⟩ := h
      cases hobject
      have hread : readMembers (Table.ofList members).entries = .ok options.entries := by
        rw [readMembers_eq_ok_iff, htable]
        rfl
      rw [hread]
      exact congrArg Except.ok (Table.ofList_entries options)
  | _ => exact ⟨nofun, nofun⟩

end Json

end DialogueTree
