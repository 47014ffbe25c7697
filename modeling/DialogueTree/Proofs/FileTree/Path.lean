import DialogueTree.FileTree.Path
import Mathlib.Data.List.Basic

/-!
# What paths are made of

Joining works on texts, looking works on parts. A name that is joined to a path is put behind
its text, and it is the last part of the whole. Between them there is a slash, which may have
been there before; without a part behind it, it would have stood for a dot.
-/

namespace DialogueTree.Path

variable {path other name : String}

theorem toList_ne_nil (h : path ≠ "") : path.toList ≠ [] :=
  fun hnil => h (String.toList_eq_nil_iff.mp hnil)

theorem isAbsolute_append (h : path ≠ "") : isAbsolute (path ++ other) = isAbsolute path := by
  unfold isAbsolute
  rw [String.toList_append, List.head?_append_of_ne_nil _ (toList_ne_nil h)]

theorem isOpen_append (h : other ≠ "") : isOpen (path ++ other) = isOpen other := by
  unfold isOpen
  rw [String.toList_append, List.getLast?_append_of_ne_nil _ (toList_ne_nil h)]

theorem isOpen_eq_false_iff :
    isOpen path = false ↔ path ≠ "" ∧ path.toList.getLast? ≠ some '/' := by
  unfold isOpen
  cases hlast : path.toList.getLast? with
  | none =>
    have hempty : path = "" := String.toList_eq_nil_iff.mp (List.getLast?_eq_none_iff.mp hlast)
    simp [hempty]
  | some c =>
    have hne : path ≠ "" := by
      rintro rfl
      cases hlast
    simp [hne]

/-! ## Joining -/

theorem join_of_absolute (h : isAbsolute path = true) (parent : String) :
    join parent path = path := if_pos h

/-- Whatever is joined to a path is put behind the same text, unless it is absolute. -/
theorem exists_lead (parent : String) :
    ∃ lead, ∀ path, isAbsolute path = false → join parent path = lead ++ path := by
  by_cases hopen : isOpen parent = true
  · exact ⟨parent, fun path hpath => by simp [join, hpath, hopen]⟩
  · exact ⟨parent ++ "/", fun path hpath => by simp [join, hpath, hopen]⟩

theorem join_eq_or (h : isAbsolute name = false) (parent : String) :
    join parent name = parent ++ name ∨ join parent name = parent ++ "/" ++ name := by
  unfold join
  rw [h]
  cases isOpen parent with
  | true => exact .inl rfl
  | false => exact .inr rfl

theorem join_of_closed {parent : String} (h : isOpen parent = false)
    (hname : isAbsolute name = false) : join parent name = parent ++ "/" ++ name := by
  simp [join, hname, h]

/-- **A name below a joined path** is joined to the last part of it as well. -/
theorem join_join (hclosed : isOpen path = false) (hname : isAbsolute name = false)
    (parent : String) : join (join parent path) name = join parent (path ++ "/" ++ name) := by
  have hne : path ≠ "" := (isOpen_eq_false_iff.mp hclosed).1
  have hlong : isAbsolute (path ++ "/" ++ name) = isAbsolute path := by
    rw [String.append_assoc, isAbsolute_append hne]
  cases hpath : isAbsolute path with
  | true =>
    rw [join_of_absolute hpath, join_of_absolute (hlong.trans hpath), join_of_closed hclosed hname]
  | false =>
    obtain ⟨lead, hlead⟩ := exists_lead parent
    rw [hlead _ hpath, hlead _ (hlong.trans hpath),
      join_of_closed ((isOpen_append hne).trans hclosed) hname]
    simp only [String.append_assoc]

/-! ## Names -/

theorem ne_empty_of_isName (h : isName name = true) : name ≠ "" := by
  simp only [isName, Bool.and_eq_true, bne_iff_ne] at h
  exact h.1.1.1.1

/-- In a name there are neither slashes nor the zero character. -/
theorem mem_of_isName (h : isName name = true) {c : Char} (hc : c ∈ name.toList) :
    c ≠ '/' ∧ c ≠ '\x00' := by
  simp only [isName, Bool.and_eq_true, List.all_eq_true, bne_iff_ne] at h
  exact h.2 c hc

theorem isAbsolute_of_isName (h : isName name = true) : isAbsolute name = false := by
  rw [← Bool.not_eq_true]
  intro habsolute
  exact (mem_of_isName h (List.mem_of_head? (beq_iff_eq.mp habsolute))).1 rfl

/-- With a name behind it, a path starts where it started. -/
theorem isAbsolute_join (hne : path ≠ "") (hname : isName name = true) :
    isAbsolute (join path name) = isAbsolute path := by
  rcases join_eq_or (isAbsolute_of_isName hname) path with heq | heq
  · rw [heq, isAbsolute_append hne]
  · rw [heq, String.append_assoc, isAbsolute_append hne]

theorem join_ne_empty (hne : path ≠ "") (hname : isName name = true) : join path name ≠ "" := by
  rcases join_eq_or (isAbsolute_of_isName hname) path with heq | heq
  · simp [heq, hne]
  · simp [heq, hne]

theorem zero_mem_join_iff (hname : isName name = true) :
    '\x00' ∈ (join path name).toList ↔ '\x00' ∈ path.toList := by
  have hown : '\x00' ∉ name.toList := fun hmem => (mem_of_isName hname hmem).2 rfl
  rcases join_eq_or (isAbsolute_of_isName hname) path with heq | heq
  · simp [heq, hown]
  · simp [heq, hown]

/-! ## Parts -/

/-- A part that leads down, if there is something to which it leads. -/
structure Descends (part : String) : Prop where
  ne_dot : part ≠ "."
  ne_up : part ≠ ".."
  short : part.utf8ByteSize ≤ partLimit

theorem descends_of_isName (h : isName name = true) : Descends name := by
  simp only [isName, Bool.and_eq_true, bne_iff_ne, decide_eq_true_eq] at h
  obtain ⟨⟨⟨⟨-, hdot⟩, hup⟩, hshort⟩, -⟩ := h
  exact ⟨hdot, hup, hshort⟩

/-- The texts between the slashes of a path. -/
def pieces (path : String) : List String :=
  ((path.toList.splitOn '/').filter (!·.isEmpty)).map String.ofList

theorem pieces_slash (path other : String) :
    pieces (path ++ "/" ++ other) = pieces path ++ pieces other := by
  have hlist : (path ++ "/" ++ other).toList = path.toList ++ '/' :: other.toList := by
    simp [String.toList_append]
  unfold pieces List.splitOn
  rw [hlist, @List.splitOnP_append_cons _ (· == '/') path.toList other.toList '/' rfl,
    List.filter_append, List.map_append]

theorem pieces_of_isName (h : isName name = true) : pieces name = [name] := by
  have hslash : ∀ c ∈ name.toList, (c == '/') = false := by
    intro c hc
    exact beq_false_of_ne (mem_of_isName h hc).1
  unfold pieces List.splitOn
  rw [List.splitOnP_eq_singleton hslash, List.filter_cons_of_pos]
  · simp
  · simpa using ne_empty_of_isName h

/-- The parts of a path, with or without the dot for a slash at its end. -/
theorem parts_eq_or (path : String) :
    parts path = pieces path ∨ parts path = pieces path ++ ["."] := by
  by_cases h : path.toList.getLast? = some '/'
  · exact .inr (by simp [parts, pieces, h])
  · exact .inl (by simp [parts, pieces, h])

theorem parts_of_closed (h : path.toList.getLast? ≠ some '/') : parts path = pieces path := by
  simp [parts, pieces, h]

theorem pieces_of_slash (h : path.toList.getLast? = some '/') :
    ∃ front, path = front ++ "/" ∧ pieces path = pieces front := by
  obtain ⟨front, hfront⟩ := List.getLast?_eq_some_iff.mp h
  have hpath : path = String.ofList front ++ "/" := String.ext (by simp [hfront])
  refine ⟨String.ofList front, hpath, ?_⟩
  have hslash := pieces_slash (String.ofList front) ""
  rw [String.append_empty] at hslash
  rw [hpath, hslash]
  exact List.append_nil _

/-- **A name that is joined to a path is the last part of the whole.** -/
theorem parts_join (hne : path ≠ "") (hname : isName name = true) :
    parts (join path name) = pieces path ++ [name] := by
  have hrelative := isAbsolute_of_isName hname
  obtain ⟨lead, hlead⟩ := exists_lead path
  have hlast : (join path name).toList.getLast? ≠ some '/' := by
    have hshut : isOpen name = false := by
      refine isOpen_eq_false_iff.mpr ⟨ne_empty_of_isName hname, fun hslash => ?_⟩
      exact (mem_of_isName hname (List.mem_of_getLast? hslash)).1 rfl
    rw [hlead name hrelative]
    rw [← isOpen_append (ne_empty_of_isName hname)] at hshut
    exact (isOpen_eq_false_iff.mp hshut).2
  rw [parts_of_closed hlast]
  by_cases hslash : path.toList.getLast? = some '/'
  · obtain ⟨front, rfl, hfront⟩ := pieces_of_slash hslash
    have hopen : isOpen (front ++ "/") = true := by
      simp [isOpen]
    have hjoin : join (front ++ "/") name = front ++ "/" ++ name := by
      simp [join, hrelative, hopen]
    rw [hjoin, pieces_slash, pieces_of_isName hname, hfront]
  · rw [join_of_closed (isOpen_eq_false_iff.mpr ⟨hne, hslash⟩) hrelative, pieces_slash,
      pieces_of_isName hname]

/-! ## One part many times -/

/-- A part, and so many times more below itself. -/
def nested (part : String) : Nat → String
  | 0 => part
  | n + 1 => part ++ "/" ++ nested part n

variable {part : String}

theorem utf8ByteSize_nested (part : String) (n : Nat) :
    (nested part n).utf8ByteSize = n * (part.utf8ByteSize + 1) + part.utf8ByteSize := by
  induction n with
  | zero => rw [nested, Nat.zero_mul, Nat.zero_add]
  | succ n ih =>
    rw [nested, String.utf8ByteSize_append, String.utf8ByteSize_append, ih, Nat.succ_mul]
    show part.utf8ByteSize + 1 + _ = _
    omega

theorem nested_ne_empty (h : part ≠ "") (n : Nat) : nested part n ≠ "" := by
  cases n with
  | zero => exact h
  | succ n => simp [nested, h]

theorem zero_not_mem_nested (h : '\x00' ∉ part.toList) (n : Nat) :
    '\x00' ∉ (nested part n).toList := by
  induction n with
  | zero => exact h
  | succ n ih => simp [nested, h, ih]

theorem isAbsolute_nested (h : part ≠ "") (n : Nat) :
    isAbsolute (nested part n) = isAbsolute part := by
  cases n with
  | zero => rfl
  | succ n => rw [nested, String.append_assoc, isAbsolute_append h]

theorem isOpen_nested (h : part ≠ "") (n : Nat) : isOpen (nested part n) = isOpen part := by
  induction n with
  | zero => rfl
  | succ n ih => rw [nested, isOpen_append (nested_ne_empty h n), ih]

theorem pieces_nested (h : pieces part = [part]) (n : Nat) :
    pieces (nested part n) = List.replicate (n + 1) part := by
  induction n with
  | zero => exact h
  | succ n ih =>
    rw [nested, pieces_slash, h, ih]
    rfl

theorem parts_nested (hclosed : isOpen part = false) (h : pieces part = [part]) (n : Nat) :
    parts (nested part n) = List.replicate (n + 1) part := by
  have hne := (isOpen_eq_false_iff.mp hclosed).1
  have hshut := (isOpen_nested hne n).trans hclosed
  rw [parts_of_closed (isOpen_eq_false_iff.mp hshut).2, pieces_nested h]

end DialogueTree.Path
