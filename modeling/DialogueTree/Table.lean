/-!
# Tables

A table binds keys to values, at most one value to a key, in the order of the
keys. Keys are ordered by code point, which is the order of their UTF-8 bytes.

The order is part of the type. Two tables that answer every lookup alike are
therefore equal, and `Table.ext_get?` is how results of different merges are
compared.
-/

namespace DialogueTree

/-- Bindings in strictly increasing order of their keys. -/
structure Table (α : Type) where
  entries : List (String × α)
  sorted : entries.Pairwise (fun a b => a.1 < b.1)

namespace Table

variable {α : Type}

/-- No bindings. -/
def empty : Table α := ⟨[], .nil⟩

instance : Inhabited (Table α) := ⟨empty⟩

/-- The value bound to `key`. -/
def get? (t : Table α) (key : String) : Option α := t.entries.lookup key

/-- Whether `key` is bound. -/
def contains (t : Table α) (key : String) : Bool := (t.get? key).isSome

/-- The bound keys, in order. -/
def keys (t : Table α) : List String := t.entries.map Prod.fst

/-- How many keys are bound. -/
def size (t : Table α) : Nat := t.entries.length

/-- Whether no key is bound. -/
def isEmpty (t : Table α) : Bool := t.entries.isEmpty

/-- Puts a binding in its place, over one for the same key. -/
def insertEntry (key : String) (value : α) : List (String × α) → List (String × α)
  | [] => [(key, value)]
  | e :: rest =>
    if key < e.1 then (key, value) :: e :: rest
    else if key = e.1 then (key, value) :: rest
    else e :: insertEntry key value rest

theorem mem_insertEntry {key : String} {value : α} {e : String × α}
    {es : List (String × α)} (h : e ∈ insertEntry key value es) :
    e = (key, value) ∨ e ∈ es := by
  induction es with
  | nil => simpa [insertEntry] using h
  | cons d rest ih =>
    rw [insertEntry] at h
    split at h
    · simpa using h
    · split at h
      · rcases List.mem_cons.1 h with h | h
        · exact .inl h
        · exact .inr (List.mem_cons_of_mem _ h)
      · rcases List.mem_cons.1 h with h | h
        · exact .inr (h ▸ List.mem_cons_self)
        · exact (ih h).imp id (List.mem_cons_of_mem _)

theorem sorted_insertEntry (key : String) (value : α) {es : List (String × α)}
    (h : es.Pairwise (fun a b => a.1 < b.1)) :
    (insertEntry key value es).Pairwise (fun a b => a.1 < b.1) := by
  induction es with
  | nil => simp [insertEntry]
  | cons d rest ih =>
    obtain ⟨hd, hrest⟩ := List.pairwise_cons.1 h
    rw [insertEntry]
    split
    · next hlt =>
      refine List.pairwise_cons.2 ⟨fun e he => ?_, h⟩
      rcases List.mem_cons.1 he with rfl | he
      · exact hlt
      · exact String.lt_trans hlt (hd e he)
    · split
      · next heq => exact List.pairwise_cons.2 ⟨fun e he => heq ▸ hd e he, hrest⟩
      · next hlt hne =>
        refine List.pairwise_cons.2 ⟨fun e he => ?_, ih hrest⟩
        rcases mem_insertEntry he with rfl | he
        · exact Std.lt_of_le_of_ne (String.not_lt.1 hlt) (Ne.symm hne)
        · exact hd e he

/-- Binds `key` to `value`, whatever it was bound to before. -/
def insert (t : Table α) (key : String) (value : α) : Table α :=
  ⟨insertEntry key value t.entries, sorted_insertEntry key value t.sorted⟩

/-- The bindings of a list. Of several for one key the last counts. -/
def ofList (es : List (String × α)) : Table α :=
  es.foldl (fun t e => t.insert e.1 e.2) empty

/-- All bindings of both tables. Where both bind a key, `later` wins. -/
def merge (earlier later : Table α) : Table α :=
  later.entries.foldl (fun t e => t.insert e.1 e.2) earlier

/-! ## Lookups -/

theorem lookup_cons_eq (e : String × α) (es : List (String × α)) (k : String) :
    (e :: es).lookup k = if k = e.1 then some e.2 else es.lookup k := by
  obtain ⟨k', v⟩ := e
  by_cases h : k = k' <;> simp [List.lookup_cons, h, beq_eq_false_iff_ne.2]

theorem lookup_insertEntry (key k : String) (value : α) (es : List (String × α)) :
    (insertEntry key value es).lookup k = if k = key then some value else es.lookup k := by
  induction es with
  | nil => simp [insertEntry, lookup_cons_eq]
  | cons d rest ih =>
    rw [insertEntry]
    split
    · simp [lookup_cons_eq]
    · split
      · next heq => simp only [lookup_cons_eq, heq]; split <;> rfl
      · next hne =>
        simp only [lookup_cons_eq, ih]
        by_cases h : k = d.1
        · simp [h, Ne.symm hne]
        · simp [h]

@[simp] theorem get?_empty (k : String) : (empty : Table α).get? k = none := rfl

@[simp] theorem get?_insert (t : Table α) (key k : String) (value : α) :
    (t.insert key value).get? k = if k = key then some value else t.get? k :=
  lookup_insertEntry key k value t.entries

/-- Inserting bindings one after the other lets the last one of a key win. -/
theorem get?_foldl_insert (es : List (String × α)) (t : Table α) (k : String) :
    (es.foldl (fun t e => t.insert e.1 e.2) t).get? k =
      (es.reverse.lookup k).or (t.get? k) := by
  induction es generalizing t with
  | nil => simp
  | cons e rest ih =>
    rw [List.foldl_cons, ih, get?_insert, List.reverse_cons, List.lookup_append,
      lookup_cons_eq]
    by_cases h : k = e.1 <;> cases rest.reverse.lookup k <;> simp [h]

theorem get?_ofList (es : List (String × α)) (k : String) :
    (ofList es).get? k = es.reverse.lookup k := by
  simp [ofList, get?_foldl_insert]

/-! ## Merging, and equality by lookups -/

/-- A key below all keys of a list is not bound in it. -/
theorem lookup_eq_none_of_lt {es : List (String × α)} {k : String}
    (h : ∀ e ∈ es, k < e.1) : es.lookup k = none := by
  induction es with
  | nil => rfl
  | cons e rest ih =>
    have hne : k ≠ e.1 := fun heq => String.lt_irrefl e.1 (heq ▸ h e List.mem_cons_self)
    rw [lookup_cons_eq, if_neg hne, ih fun d hd => h d (List.mem_cons_of_mem _ hd)]

/-- Where no key is bound twice it does not matter from which end one looks. -/
theorem lookup_reverse {es : List (String × α)} (h : es.Pairwise (fun a b => a.1 < b.1))
    (k : String) : es.reverse.lookup k = es.lookup k := by
  induction es with
  | nil => rfl
  | cons e rest ih =>
    obtain ⟨he, hrest⟩ := List.pairwise_cons.1 h
    rw [List.reverse_cons, List.lookup_append, ih hrest, lookup_cons_eq]
    by_cases hk : k = e.1
    · rw [lookup_eq_none_of_lt fun d hd => hk ▸ he d hd]
      simp [lookup_cons_eq, hk]
    · simp [lookup_cons_eq, hk]

/-- **The later table wins.** -/
@[simp] theorem get?_merge (a b : Table α) (k : String) :
    (a.merge b).get? k = (b.get? k).or (a.get? k) := by
  rw [merge, get?_foldl_insert, lookup_reverse b.sorted]
  rfl

theorem entries_ext {as bs : List (String × α)} (ha : as.Pairwise (fun a b => a.1 < b.1))
    (hb : bs.Pairwise (fun a b => a.1 < b.1)) (h : ∀ k, as.lookup k = bs.lookup k) :
    as = bs := by
  induction as generalizing bs with
  | nil =>
    cases bs with
    | nil => rfl
    | cons b bs => simpa [lookup_cons_eq] using h b.1
  | cons a as ih =>
    cases bs with
    | nil => simpa [lookup_cons_eq] using h a.1
    | cons b bs =>
      obtain ⟨hla, hsa⟩ := List.pairwise_cons.1 ha
      obtain ⟨hlb, hsb⟩ := List.pairwise_cons.1 hb
      -- the least keys agree: each is bound on the other side, and nothing there is less
      have hle : ∀ {x y : String × α} {xs ys : List (String × α)},
          (∀ e ∈ ys, y.1 < e.1) → (∀ k, (x :: xs).lookup k = (y :: ys).lookup k) →
          ¬ x.1 < y.1 := by
        intro x y xs ys hy hxy hlt
        have hnone : (y :: ys).lookup x.1 = none := lookup_eq_none_of_lt fun e he => by
          rcases List.mem_cons.1 he with rfl | he
          · exact hlt
          · exact String.lt_trans hlt (hy e he)
        have := hxy x.1
        simp [lookup_cons_eq, hnone] at this
      have hkey : a.1 = b.1 :=
        String.le_antisymm (String.not_lt.1 (hle hla fun k => (h k).symm))
          (String.not_lt.1 (hle hlb h))
      have hval : a.2 = b.2 := by simpa [lookup_cons_eq, hkey] using h a.1
      have hrest : ∀ k, as.lookup k = bs.lookup k := by
        intro k
        by_cases hk : k = a.1
        · rw [lookup_eq_none_of_lt fun e he => hk ▸ hla e he,
            lookup_eq_none_of_lt fun e he => (hk.trans hkey) ▸ hlb e he]
        · simpa [lookup_cons_eq, hk, hkey ▸ hk] using h k
      rw [ih hsa hsb hrest, Prod.ext hkey hval]

/-- **Tables that answer every lookup alike are equal.** -/
theorem ext_get? {a b : Table α} (h : ∀ k, a.get? k = b.get? k) : a = b := by
  obtain ⟨as, ha⟩ := a
  obtain ⟨bs, hb⟩ := b
  obtain rfl : as = bs := entries_ext ha hb h
  rfl

/-- A table is the table of its own bindings. -/
@[simp] theorem ofList_entries (t : Table α) : ofList t.entries = t :=
  ext_get? fun k => by rw [get?_ofList, lookup_reverse t.sorted]; rfl

end Table

end DialogueTree
