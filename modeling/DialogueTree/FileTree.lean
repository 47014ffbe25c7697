import DialogueTree.Error
import DialogueTree.FileTree.Path
import DialogueTree.Text.Utf8

/-!
# File trees

A finite tree of files, directories and symbolic links, together with the working
directory from which relative paths start. Everything in the tree is at one place,
the list of names on the way to it from the root, and a path leads to at most one
place: the one that is left when all links, dots and double dots on the way have
been followed. That place is the identity of a file. Two paths name the same file
when they lead to the same place.

A directory lists its names in no particular order. It may be locked, and then it does not list
them at all, but whoever knows a name can still go by it. A file that is locked cannot be read. No
more can be forbidden. A directory whose names may not be gone by looks as if they were those of
links that lead nowhere.

The system goes along a path part by part. There is a limit on the text that it is handed and
on the number of links, but none on the depth of the places that it comes through. It is different
if the place itself is asked for. Then each place on the way is looked at by its own text, which
is handed over as well. So a path can lead to a file although it cannot be told where that is.

Nothing changes while a tree is looked at.
-/

namespace DialogueTree

/-- The names on the way from the root. -/
abbrev Place := List String

/-- What is at a place. -/
inductive Item where
  | file (bytes : Bytes)
  | directory
  | link (target : String)
  deriving Repr, DecidableEq

/-- A finite tree of files with a working directory. What is locked is neither read nor listed. -/
structure FileTree where
  items : List (Place × Item)
  base : Place
  distinct : (items.map Prod.fst).Nodup
  named : ∀ e ∈ items, e.1.all Path.isName = true
  locked : List Place := []

namespace FileTree

/-- A tree with nothing but its root. -/
def empty : FileTree := ⟨[], [], .nil, by simp, []⟩

instance : Inhabited FileTree := ⟨empty⟩

/-! ## Building -/

/-- Puts an item at a place that is free and can be named. -/
def put (t : FileTree) (place : Place) (item : Item) : FileTree :=
  if h : place ∉ t.items.map Prod.fst ∧ place.all Path.isName = true ∧ place ≠ [] then
    { items := (place, item) :: t.items
      base := t.base
      distinct := List.nodup_cons.2 ⟨h.1, t.distinct⟩
      named := fun e he => by
        rcases List.mem_cons.1 he with rfl | he
        · exact h.2.1
        · exact t.named e he
      locked := t.locked }
  else t

/-- Makes the directories on the way to a place, and the place itself one. -/
def putDirectories (t : FileTree) (place : Place) : FileTree :=
  (List.range place.length).foldl (fun t n => t.put (place.take (n + 1)) .directory) t

/-- Takes away what is at a place. -/
def erase (t : FileTree) (place : Place) : FileTree where
  items := t.items.filter (·.1 != place)
  base := t.base
  distinct := (List.filter_sublist.map _).nodup t.distinct
  named e he := t.named e (List.mem_filter.1 he).1
  locked := t.locked

/-- Locks what is at a place. -/
def lock (t : FileTree) (place : Place) : FileTree := { t with locked := place :: t.locked }

/-- Writes the content of a file, also of one that is there already. -/
def write (t : FileTree) (place : Place) (bytes : Bytes) : FileTree :=
  (t.erase place).put place (.file bytes)

/-- An empty tree in which one goes to work at a place. -/
def workingAt (place : Place) : FileTree := { empty.putDirectories place with base := place }

/-! ## Looking -/

/-- What is at a place. The root is a directory. -/
def item? (t : FileTree) (place : Place) : Option Item :=
  if place.isEmpty then some .directory else t.items.lookup place

/-- Whether what is at a place is locked. -/
def isLocked (t : FileTree) (place : Place) : Bool := t.locked.contains place

/-- A limit on places: whether one may come to a place, with some parts left behind it. -/
abbrev Limit := Place → List String → Bool

/-- Places may be as deep as they are. -/
def anyDepth : Limit := fun _ _ => true

/-- The length in bytes of the text of a place, in which a slash is before each name. -/
def textSize : Place → Nat
  | [] => 0
  | name :: names => name.utf8ByteSize + 1 + textSize names

/-- The text of a place has to stay below the limit on texts, together with the slash behind it if
it has to be a directory. -/
def anyText : Limit := fun place rest =>
  decide (textSize place + (if Path.asksDirectory rest then 1 else 0) < Path.lengthLimit)

/-- Goes down from a directory part by part. A link is handed on, together with
the directory that holds it and the parts that are left. -/
def descend (t : FileTree) (limit : Limit)
    (jump : Place → String → List String → Except FileFault Place) :
    Place → List String → Except FileFault Place
  | here, [] => .ok here
  | here, part :: rest =>
    match t.item? here with
    | some .directory =>
      if part = "." then descend t limit jump here rest
      else if part = ".." then descend t limit jump here.dropLast rest
      else if Path.partLimit < part.utf8ByteSize then .error .nameTooLong
      else if limit (here ++ [part]) [] = false then .error .nameTooLong
      else match t.item? (here ++ [part]) with
        | some (.link target) => jump here target rest
        | some _ =>
          -- only now it is known that the parts behind the name do not replace it
          if limit (here ++ [part]) rest = false then .error .nameTooLong
          else descend t limit jump (here ++ [part]) rest
        | none => .error .missing
    | some _ => .error .notDirectory
    | none => .error .missing

/-- Where a path starts that is found in a directory. -/
def startOf (here : Place) (path : String) : Place := if Path.isAbsolute path then [] else here

/-- Goes down from a directory and follows at most so many links on the way. -/
def follow (t : FileTree) (limit : Limit) : Nat → Place → List String → Except FileFault Place
  | 0 => t.descend limit fun _ _ _ => .error .tooManyLinks
  | n + 1 => t.descend limit fun here target rest =>
    follow t limit n (startOf here target) (Path.parts target ++ rest)

/-- The place to which a path leads within a limit. The path itself is gone along part by part,
and so may be of any length. -/
def find (t : FileTree) (limit : Limit) (path : String) : Except FileFault Place :=
  if path.toList.contains '\x00' then .error .nulInPath
  else if path.isEmpty then .error .missing
  else t.follow limit Path.linkLimit (startOf t.base path) (Path.parts path)

/-- The place to which a path leads if it is handed over as a whole, as it is to look
at what is there or to open it. Such a path must not be too long. -/
def locate (t : FileTree) (path : String) : Except FileFault Place :=
  if path.toList.contains '\x00' then .error .nulInPath
  else if Path.lengthLimit ≤ path.utf8ByteSize then .error .nameTooLong
  else t.find anyDepth path

/-- The real place of a path, or why it is not told. Every place on the way to it is handed over
as a whole, even though the path is not. -/
def canonical (t : FileTree) (path : String) : Except FileFault Place := t.find anyText path

/-- The real place of a path, if it is told. -/
def realPlace? (t : FileTree) (path : String) : Option Place := (t.canonical path).toOption

/-- The place at which one may look through a path. -/
def place? (t : FileTree) (path : String) : Option Place := (t.locate path).toOption

/-- Whether a path leads to a directory. -/
def isDirectory (t : FileTree) (path : String) : Bool :=
  match t.place? path with
  | some place => t.item? place == some .directory
  | none => false

/-- The place and the content of a file at a path. -/
def file? (t : FileTree) (path : String) : Option (Place × Bytes) :=
  match t.place? path with
  | some place =>
    match t.item? place with
    | some (.file bytes) => some (place, bytes)
    | _ => none
  | none => none

/-- Whether a path leads to a file. -/
def isFile (t : FileTree) (path : String) : Bool := (t.file? path).isSome

/-- The content of the file at a path. A directory can be opened, but not read. -/
def read (t : FileTree) (path : String) : Except FileFault Bytes := do
  let place ← t.locate path
  if t.isLocked place then .error .denied
  else match t.item? place with
    | some (.file bytes) => .ok bytes
    | some .directory => .error .isDirectory
    | _ => .error .missing

/-- The names in the directory at a place. -/
def namesIn (t : FileTree) (place : Place) : List String :=
  t.items.filterMap fun e =>
    match e.1.getLast? with
    | some name => if e.1.dropLast = place then some name else none
    | none => none

/-- The names in the directory at a path, or why it does not list them. -/
def list (t : FileTree) (path : String) : Except FileFault (List String) := do
  let place ← t.locate path
  if t.item? place ≠ some .directory then .error .notDirectory
  else if t.isLocked place then .error .denied
  else .ok (t.namesIn place)

/-- The places of all files. -/
def files (t : FileTree) : List Place :=
  t.items.filterMap fun e =>
    match e.2 with
    | .file _ => some e.1
    | _ => none

/-! ## Within limits -/

variable {t : FileTree} {path : String} {place : Place} {bytes : Bytes}

theorem not_anyDepth_eq_false (place : Place) (rest : List String) :
    ¬ anyDepth place rest = false := by
  intro h
  cases h

/-- A limit on places is only met as a text that is too long. -/
theorem descend_eq_or {limit : Limit}
    {jump jump' : Place → String → List String → Except FileFault Place}
    (hjump : ∀ here target rest, jump here target rest = jump' here target rest
      ∨ jump here target rest = .error .nameTooLong) (here : Place) (parts : List String) :
    t.descend limit jump here parts = t.descend anyDepth jump' here parts
      ∨ t.descend limit jump here parts = .error .nameTooLong := by
  induction parts generalizing here with
  | nil => exact .inl rfl
  | cons part rest ih =>
    rw [descend, descend]
    cases t.item? here with
    | none => exact .inl rfl
    | some item =>
      cases item with
      | file bytes => exact .inl rfl
      | link target => exact .inl rfl
      | directory =>
        dsimp only
        by_cases hdot : part = "."
        · rw [if_pos hdot, if_pos hdot]
          exact ih here
        · rw [if_neg hdot, if_neg hdot]
          by_cases hup : part = ".."
          · rw [if_pos hup, if_pos hup]
            exact ih here.dropLast
          · rw [if_neg hup, if_neg hup]
            by_cases hlong : Path.partLimit < part.utf8ByteSize
            · exact .inr (if_pos hlong)
            · rw [if_neg hlong, if_neg hlong]
              by_cases hnarrow : limit (here ++ [part]) [] = false
              · exact .inr (if_pos hnarrow)
              · rw [if_neg hnarrow, if_neg (not_anyDepth_eq_false _ _)]
                cases t.item? (here ++ [part]) with
                | none => exact .inl rfl
                | some next =>
                  cases next with
                  | link target => exact hjump here target rest
                  | file _ | directory =>
                    dsimp only
                    by_cases hends : limit (here ++ [part]) rest = false
                    · exact .inr (if_pos hends)
                    · rw [if_neg hends, if_neg (not_anyDepth_eq_false _ _)]
                      exact ih (here ++ [part])

theorem follow_eq_or (t : FileTree) (limit : Limit) (n : Nat) (here : Place)
    (parts : List String) :
    t.follow limit n here parts = t.follow anyDepth n here parts
      ∨ t.follow limit n here parts = .error .nameTooLong := by
  induction n generalizing here parts with
  | zero => exact descend_eq_or (fun _ _ _ => .inl rfl) here parts
  | succ n ih =>
    exact descend_eq_or
      (fun here target rest => ih (startOf here target) (Path.parts target ++ rest)) here parts

/-- **The real place of a path is the place to which it leads**, unless a text on the way is too
long for it to be told. -/
theorem canonical_eq_or (t : FileTree) (path : String) :
    t.canonical path = t.find anyDepth path ∨ t.canonical path = .error .nameTooLong := by
  unfold canonical find
  split
  · exact .inl rfl
  · split
    · exact .inl rfl
    · exact t.follow_eq_or anyText _ _ _

theorem find_of_canonical (h : t.canonical path = .ok place) :
    t.find anyDepth path = .ok place := by
  rcases t.canonical_eq_or path with hsame | hlong
  · exact hsame.symm.trans h
  · cases hlong.symm.trans h

/-! ## Files -/

theorem mem_files_of_item? (h : t.item? place = some (.file bytes)) : place ∈ t.files := by
  unfold item? at h
  split at h
  · cases h
  · obtain ⟨before, behind, hitems, -⟩ := List.lookup_eq_some_iff.1 h
    exact List.mem_filterMap.2 ⟨(place, .file bytes), by simp [hitems], rfl⟩

theorem find_of_place? (h : t.place? path = some place) : t.find anyDepth path = .ok place := by
  unfold place? locate at h
  split at h
  · cases h
  · split at h
    · cases h
    · cases hfind : t.find anyDepth path with
      | error fault =>
        rw [hfind] at h
        cases h
      | ok found =>
        rw [hfind] at h
        cases h
        rfl

theorem file?_eq_some_iff :
    t.file? path = some (place, bytes) ↔
      t.place? path = some place ∧ t.item? place = some (.file bytes) := by
  unfold file?
  constructor
  · intro h
    split at h
    · next found hfound =>
      split at h
      · next content hitem =>
        cases h
        exact ⟨hfound, hitem⟩
      · cases h
    · cases h
  · intro h
    obtain ⟨hplace, hitem⟩ := h
    rw [hplace]
    dsimp only
    rw [hitem]

/-- A file is at its real place, if this is told. -/
theorem exists_file_of_canonical (hfile : t.isFile path = true) (h : t.canonical path = .ok place) :
    ∃ bytes, t.file? path = some (place, bytes) := by
  obtain ⟨⟨found, bytes⟩, hfound⟩ := Option.isSome_iff_exists.mp hfile
  obtain ⟨hplace, -⟩ := file?_eq_some_iff.mp hfound
  cases (find_of_canonical h).symm.trans (find_of_place? hplace)
  exact ⟨bytes, hfound⟩

/-- The real place of a file is one of the finitely many. -/
theorem mem_files_of_canonical (hfile : t.isFile path = true) (h : t.canonical path = .ok place) :
    place ∈ t.files := by
  obtain ⟨bytes, hfound⟩ := exists_file_of_canonical hfile h
  exact mem_files_of_item? (file?_eq_some_iff.mp hfound).2

end FileTree

end DialogueTree
