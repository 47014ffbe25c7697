import DialogueTree.Table

/-!
# Layers of tables

Merging is done bottom-up: an included document is put together first and merged
as a whole afterwards. The law about the result speaks of one flat list of tables
instead, of which the last one to bind a key wins.

The two agree because merging is associative. `merge_layer` is the step from the
one to the other: a table that is itself layered is merged as if its layers had
been merged one by one.
-/

namespace DialogueTree.Table

variable {α : Type}

/-- `v` is what the last table of the list to bind `k` binds it to. -/
def LastBinds (ts : List (Table α)) (k : String) (v : α) : Prop :=
  ∃ before t behind, ts = before ++ t :: behind ∧ t.get? k = some v
    ∧ ∀ u ∈ behind, u.get? k = none

/-- A table with others merged over it, one after the other. -/
def layer (t : Table α) (later : List (Table α)) : Table α := later.foldl merge t

@[simp] theorem layer_nil (t : Table α) : t.layer [] = t := rfl

@[simp] theorem layer_cons (t u : Table α) (later : List (Table α)) :
    t.layer (u :: later) = (t.merge u).layer later := rfl

theorem layer_append (t : Table α) (us vs : List (Table α)) :
    t.layer (us ++ vs) = (t.layer us).layer vs := List.foldl_append

theorem merge_assoc (a b c : Table α) : (a.merge b).merge c = a.merge (b.merge c) := by
  apply ext_get?
  intro k
  rw [get?_merge, get?_merge, get?_merge, get?_merge, Option.or_assoc]

/-- **Merging a layered table merges its layers.** -/
theorem merge_layer (a b : Table α) (later : List (Table α)) :
    a.merge (b.layer later) = (a.merge b).layer later := by
  -- one layer at a time leaves `b` and becomes one of `a.merge b`
  induction later generalizing b with
  | nil => rfl
  | cons u later ih =>
    have hfirst : (a.merge b).merge u = a.merge (b.merge u) := merge_assoc a b u
    rw [layer_cons, ih, layer_cons, hfirst]

/-- Looking up goes through the layers from the last one to the first. -/
theorem get?_layer (t : Table α) (later : List (Table α)) (k : String) :
    (t.layer later).get? k = (t :: later).reverse.findSome? (·.get? k) := by
  induction later generalizing t with
  | nil => cases h : t.get? k <;> simp [h]
  | cons u later ih =>
    -- the two lowest layers are one by now, which looks them up in the same order
    have htop : [t.merge u].findSome? (·.get? k) = [u, t].findSome? (·.get? k) := by
      cases hu : u.get? k <;> cases ht : t.get? k <;> simp [hu, ht]
    rw [layer_cons, ih, List.reverse_cons, List.findSome?_append, htop, List.reverse_cons,
      List.reverse_cons, List.append_assoc, List.findSome?_append]
    rfl

theorem get?_layer_eq_some_iff {t : Table α} {later : List (Table α)} {k : String} {v : α} :
    (t.layer later).get? k = some v ↔ LastBinds (t :: later) k v := by
  rw [get?_layer, List.findSome?_eq_some_iff]
  constructor
  · intro h
    obtain ⟨behind, u, before, hsplit, hu, hbehind⟩ := h
    refine ⟨before.reverse, u, behind.reverse, ?_, hu, ?_⟩
    · have hturned := congrArg List.reverse hsplit
      simpa using hturned
    · intro x hx
      exact hbehind x (List.mem_reverse.mp hx)
  · intro h
    obtain ⟨before, u, behind, hsplit, hu, hbehind⟩ := h
    refine ⟨behind.reverse, u, before.reverse, by simp [hsplit], hu, ?_⟩
    intro x hx
    exact hbehind x (List.mem_reverse.mp hx)

theorem contains_layer {t : Table α} {later : List (Table α)} {k : String} :
    (t.layer later).contains k = true ↔ ∃ u ∈ t :: later, u.contains k = true := by
  unfold contains
  rw [get?_layer, List.findSome?_isSome_iff]
  simp only [List.mem_reverse]

/-- The layers are looked up before what they lie over. -/
theorem get?_layer_or (t : Table α) (later : List (Table α)) (k : String) :
    (t.layer later).get? k = (later.reverse.findSome? (·.get? k)).or (t.get? k) := by
  rw [get?_layer, List.reverse_cons, List.findSome?_append]
  simp

/-! ## Merging what has been merged -/

/-- **Layers that lie over a table already change nothing.** -/
theorem layer_layer_self (t : Table α) (later : List (Table α)) :
    (t.layer later).layer later = t.layer later := by
  apply ext_get?
  intro k
  rw [get?_layer_or, get?_layer_or, ← Option.or_assoc, Option.or_self]

theorem merge_eq_self {t u : Table α} (h : ∀ k v, u.get? k = some v → t.get? k = some v) :
    t.merge u = t := by
  apply ext_get?
  intro k
  rw [get?_merge]
  cases hu : u.get? k with
  | none => rfl
  | some v => exact (h k v hu).symm

/-- Layers change nothing if their bindings are in the table. -/
theorem layer_eq_self {t : Table α} {later : List (Table α)}
    (h : ∀ u ∈ later, ∀ k v, u.get? k = some v → t.get? k = some v) : t.layer later = t := by
  induction later with
  | nil => rfl
  | cons u later ih =>
    rw [layer_cons, merge_eq_self (h u List.mem_cons_self)]
    exact ih fun u hu => h u (List.mem_cons_of_mem _ hu)

/-! ## Keys -/

theorem keys_sorted (t : Table α) : t.keys.Pairwise (· < ·) :=
  List.pairwise_map.mpr t.sorted

theorem mem_map_fst_iff {es : List (String × α)} {k : String} :
    k ∈ es.map Prod.fst ↔ (es.lookup k).isSome = true := by
  induction es with
  | nil => simp
  | cons e es ih =>
    rw [List.map_cons, List.mem_cons, ih, lookup_cons_eq]
    by_cases h : k = e.1 <;> simp [h]

theorem contains_iff_mem_keys {t : Table α} {k : String} : t.contains k = true ↔ k ∈ t.keys :=
  mem_map_fst_iff.symm

theorem mem_keys_ofList {es : List (String × α)} {k : String} :
    k ∈ (ofList es).keys ↔ k ∈ es.map Prod.fst := by
  rw [← contains_iff_mem_keys, contains, get?_ofList, ← mem_map_fst_iff, List.map_reverse,
    List.mem_reverse]

end DialogueTree.Table
