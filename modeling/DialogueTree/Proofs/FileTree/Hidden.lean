import DialogueTree.Proofs.FileTree.Path
import DialogueTree.Proofs.Include.Resolving

/-!
# Files whose real place is not told

To say where a path leads, the system looks at every place on the way by its own text. A path that
is short enough to be looked through may come through places whose texts are too long for that,
since it may have come there by links. Then there is a file, it can be read, and yet its real place
is `Hidden`.

Nothing else can keep the real place of a file from being told (`canonical_of_locate`), and what
is told is short (`textSize_of_canonical`). That it happens is shown by a `well`, whose bottom is
deeper than a text can be long.
-/

namespace DialogueTree.FileTree

variable {t : FileTree} {limit : Limit} {here place : Place} {path name : String}

/-- The real place of a path is not told for the length of a text on the way, whatever the path
may lead to. -/
def Hidden (t : FileTree) (path : String) : Prop := t.canonical path = .error .nameTooLong

instance (t : FileTree) (path : String) : Decidable (t.Hidden path) :=
  inferInstanceAs (Decidable (_ = _))

/-- **The real place of a file is that to which the path leads, or hidden.** -/
theorem canonical_of_locate (h : t.locate path = .ok place) :
    t.canonical path = .ok place ∨ t.Hidden path := by
  rcases t.canonical_eq_or path with hsame | hlong
  · exact .inl (hsame.trans (locate_eq_ok_iff.mp h).2)
  · exact .inr hlong

theorem leads_or_hidden (hfile : t.isFile path = true) :
    (∃ place, t.Leads path place) ∨ t.Hidden path := by
  obtain ⟨place, bytes, hlocate, -⟩ := isFile_iff.mp hfile
  exact (canonical_of_locate hlocate).imp_left fun hreal => ⟨place, hfile, hreal⟩

theorem Hidden.not_leads (h : t.Hidden path) (place : Place) : ¬ t.Leads path place := by
  rintro ⟨-, hreal⟩
  cases h.symm.trans hreal

/-! ## One part -/

section Part

variable {part target : String} {rest : List String}
  {jump : Place → String → List String → Except FileFault Place}

theorem descend_of_narrow (hhere : t.item? here = some .directory) (hpart : Path.Descends part)
    (hlimit : limit (here ++ [part]) [] = false) :
    t.descend limit jump here (part :: rest) = .error .nameTooLong := by
  rw [descend, hhere]
  exact (if_neg hpart.ne_dot).trans ((if_neg hpart.ne_up).trans
    ((if_neg (Nat.not_lt.mpr hpart.short)).trans (if_pos hlimit)))

/-- **At a part that leads down, it only matters what it leads to**, as far as one may go. -/
theorem descend_of_descends (hhere : t.item? here = some .directory) (hpart : Path.Descends part)
    (hlimit : limit (here ++ [part]) [] = true) :
    t.descend limit jump here (part :: rest) =
      match t.item? (here ++ [part]) with
      | some (.link target) => jump here target rest
      | some _ =>
        if limit (here ++ [part]) rest = false then .error .nameTooLong
        else t.descend limit jump (here ++ [part]) rest
      | none => .error .missing := by
  have hwide : ¬ limit (here ++ [part]) [] = false := by rw [hlimit]; nofun
  rw [descend, hhere]
  exact (if_neg hpart.ne_dot).trans ((if_neg hpart.ne_up).trans
    ((if_neg (Nat.not_lt.mpr hpart.short)).trans (if_neg hwide)))

theorem descend_of_none (hhere : t.item? here = some .directory) (hpart : Path.Descends part)
    (hlimit : limit (here ++ [part]) [] = true) (hnext : t.item? (here ++ [part]) = none) :
    t.descend limit jump here (part :: rest) = .error .missing := by
  rw [descend_of_descends hhere hpart hlimit, hnext]

theorem descend_of_link (hhere : t.item? here = some .directory) (hpart : Path.Descends part)
    (hlimit : limit (here ++ [part]) [] = true)
    (hnext : t.item? (here ++ [part]) = some (.link target)) :
    t.descend limit jump here (part :: rest) = jump here target rest := by
  rw [descend_of_descends hhere hpart hlimit, hnext]

theorem descend_of_item {item : Item} (hhere : t.item? here = some .directory)
    (hpart : Path.Descends part) (hlimit : ∀ rest, limit (here ++ [part]) rest = true)
    (hnext : t.item? (here ++ [part]) = some item) (hitem : ∀ target, item ≠ .link target) :
    t.descend limit jump here (part :: rest) = t.descend limit jump (here ++ [part]) rest := by
  have hwide : ¬ limit (here ++ [part]) rest = false := by rw [hlimit]; nofun
  rw [descend_of_descends hhere hpart (hlimit []), hnext]
  cases item with
  | link target => exact absurd rfl (hitem target)
  | file bytes => exact if_neg hwide
  | directory => exact if_neg hwide

end Part

/-! ## What is told is short -/

theorem textSize_dropLast_le (place : Place) : textSize place.dropLast ≤ textSize place := by
  induction place with
  | nil => exact Nat.le_refl _
  | cons name names ih =>
    cases names with
    | nil => exact Nat.zero_le _
    | cons next names => exact Nat.add_le_add_left ih _

theorem textSize_replicate (name : String) (n : Nat) :
    textSize (List.replicate n name) = n * (name.utf8ByteSize + 1) := by
  induction n with
  | zero => rw [Nat.zero_mul]; rfl
  | succ n ih => rw [List.replicate_succ, textSize, ih, Nat.succ_mul, Nat.add_comm]

theorem textSize_startOf (h : textSize here < Path.lengthLimit) (path : String) :
    textSize (startOf here path) < Path.lengthLimit := by
  unfold startOf
  split
  · decide
  · exact h

/-- Going down comes to short places only, if following links does. -/
theorem textSize_of_descend {jump : Place → String → List String → Except FileFault Place}
    (hjump : ∀ here target rest, textSize here < Path.lengthLimit →
      jump here target rest = .ok place → textSize place < Path.lengthLimit)
    {parts : List String} (hhere : textSize here < Path.lengthLimit)
    (h : t.descend anyText jump here parts = .ok place) : textSize place < Path.lengthLimit := by
  induction parts generalizing here with
  | nil =>
    cases h
    exact hhere
  | cons part rest ih =>
    rw [descend] at h
    split at h
    · split at h
      · exact ih hhere h
      · split at h
        · exact ih (Nat.lt_of_le_of_lt (textSize_dropLast_le here) hhere) h
        · split at h
          · cases h
          · split at h
            · cases h
            · next hnarrow =>
              have hnext : textSize (here ++ [part]) < Path.lengthLimit := by
                rw [Bool.not_eq_false, anyText, decide_eq_true_eq] at hnarrow
                exact Nat.lt_of_le_of_lt (Nat.le_add_right _ _) hnarrow
              split at h
              · next target _ => exact hjump here target rest hhere h
              · split at h
                · cases h
                · exact ih hnext h
              · cases h
    · cases h
    · cases h

theorem textSize_of_follow {n : Nat} {parts : List String}
    (hhere : textSize here < Path.lengthLimit) (h : t.follow anyText n here parts = .ok place) :
    textSize place < Path.lengthLimit := by
  induction n generalizing here parts with
  | zero =>
    have hdescend : t.descend anyText (fun _ _ _ => .error .tooManyLinks) here parts
        = .ok place := h
    refine textSize_of_descend ?_ hhere hdescend
    intro here target rest _ hjump
    cases hjump
  | succ n ih =>
    exact textSize_of_descend (fun here target rest hshort => ih (textSize_startOf hshort target))
      hhere h

/-- **The text of a real place that is told is short**, if that of the working directory is. -/
theorem textSize_of_canonical (hbase : textSize t.base < Path.lengthLimit)
    (h : t.canonical path = .ok place) : textSize place < Path.lengthLimit :=
  textSize_of_follow (textSize_startOf hbase path) (find_eq_ok_iff.mp h).2.2

/-! ## At the bottom of a well -/

/-- What is at a place is what the tree has there. -/
theorem item?_of_mem {item : Item} (h : (place, item) ∈ t.items) (hne : place ≠ []) :
    t.item? place = some item := by
  obtain ⟨before, behind, hsplit⟩ := List.append_of_mem h
  unfold item?
  rw [if_neg (by simpa using hne)]
  -- the first entry for the place is the only one
  refine List.lookup_eq_some_iff.mpr ⟨before, behind, hsplit, fun entry hentry => ?_⟩
  have hdistinct := t.distinct
  rw [hsplit, List.map_append, List.map_cons] at hdistinct
  have hother : place ≠ entry.1 := by
    rintro rfl
    exact List.disjoint_of_nodup_append hdistinct (List.mem_map_of_mem hentry) List.mem_cons_self
  exact bne_iff_ne.mpr hother

/-- A well. A rope leads half way down, and what is at its bottom is the bucket that stands next
to it. -/
def well (half : Nat) : FileTree where
  items :=
    [(["rope"], .link (Path.nested "d" half)),
      (["bucket.json"], .file (Text.encode (Json.object [("water", .int 1)]).render)),
      (List.replicate (2 * half + 2) "d" ++ ["bucket.json"], .link "/bucket.json")]
    ++ (List.range (2 * half + 2)).map fun n => (List.replicate (n + 1) "d", .directory)
  base := []
  distinct := by
    have hdown : ∀ n place, place ∈ [["rope"], ["bucket.json"],
        List.replicate (2 * half + 2) "d" ++ ["bucket.json"]] →
        place ≠ List.replicate (n + 1) "d" := by
      rintro n place hplace rfl
      have hlast : (List.replicate (n + 1) "d").getLast? = some "d" := by
        simp [List.getLast?_replicate]
      simp only [List.mem_cons, List.not_mem_nil, or_false] at hplace
      rcases hplace with h | h | h
      all_goals
        rw [h] at hlast
        simp at hlast
    rw [List.map_append, List.map_map, List.nodup_append]
    refine ⟨?_, ?_, ?_⟩
    · simp [List.replicate_succ]
    · refine List.nodup_range.map fun n m h => ?_
      simpa using h
    · intro place hplace other hother
      obtain ⟨n, -, rfl⟩ := List.mem_map.mp hother
      exact hdown n place hplace
  named := by
    have hdown : ∀ n, (List.replicate n "d").all Path.isName = true := by
      intro n
      rw [List.all_replicate]
      split
      · rfl
      · rfl
    rw [List.forall_mem_append, List.forall_mem_map]
    simp only [List.forall_mem_cons, List.all_append, hdown]
    exact ⟨⟨rfl, rfl, rfl, nofun⟩, fun _ _ => trivial⟩

variable {half : Nat}

theorem item?_well {n : Nat} (h : n ≤ 2 * half + 2) :
    (well half).item? (List.replicate n "d") = some .directory := by
  cases n with
  | zero => rfl
  | succ n =>
    refine item?_of_mem (List.mem_append_right _ ?_) (by simp)
    exact List.mem_map_of_mem (List.mem_range.mpr h)

/-- One step down the well. -/
theorem descend_step {n : Nat} (hdepth : n + 1 ≤ 2 * half + 2)
    (hlimit : ∀ rest, limit (List.replicate (n + 1) "d") rest = true)
    (jump : Place → String → List String → Except FileFault Place) (rest : List String) :
    (well half).descend limit jump (List.replicate n "d") ("d" :: rest)
      = (well half).descend limit jump (List.replicate (n + 1) "d") rest := by
  have hitem := item?_well hdepth
  rw [List.replicate_succ'] at hlimit hitem ⊢
  exact descend_of_item (item?_well (by omega)) (Path.descends_of_isName rfl) hlimit hitem nofun

/-- The way down the well is open as far as the limit goes. -/
theorem descend_well {n k : Nat} (hdepth : n + k ≤ 2 * half + 2)
    (hlimit : ∀ i ≤ n + k, ∀ rest, limit (List.replicate i "d") rest = true)
    (jump : Place → String → List String → Except FileFault Place) (rest : List String) :
    (well half).descend limit jump (List.replicate n "d") (List.replicate k "d" ++ rest)
      = (well half).descend limit jump (List.replicate (n + k) "d") rest := by
  induction k generalizing n with
  | zero => rfl
  | succ k ih =>
    have hdown := ih (show n + 1 + k ≤ 2 * half + 2 by omega) fun i hi => hlimit i (by omega)
    rw [List.replicate_succ, List.cons_append, descend_step (by omega) (hlimit (n + 1) (by omega)),
      hdown, Nat.add_assoc, Nat.add_comm 1 k]

/-- The name of the bucket below the rope. -/
def bucketBelow (half : Nat) : String :=
  "rope" ++ "/" ++ Path.nested "d" half ++ "/" ++ "bucket.json"

theorem join_bucketBelow (half : Nat) :
    Path.join "." (bucketBelow half) = "." ++ "/" ++ bucketBelow half := by
  refine Path.join_of_closed (by decide) ?_
  unfold bucketBelow
  simp only [String.append_assoc]
  rw [Path.isAbsolute_append (by decide)]
  rfl

theorem parts_bucketBelow (half : Nat) :
    Path.parts (Path.join "." (bucketBelow half))
      = "." :: "rope" :: (List.replicate (half + 1) "d" ++ ["bucket.json"]) := by
  have hclosed : Path.isOpen (Path.join "." (bucketBelow half)) = false := by
    rw [join_bucketBelow, bucketBelow, ← String.append_assoc, Path.isOpen_append (by decide)]
    rfl
  rw [Path.parts_of_closed (Path.isOpen_eq_false_iff.mp hclosed).2, join_bucketBelow, bucketBelow,
    Path.pieces_slash, Path.pieces_slash, Path.pieces_slash,
    Path.pieces_nested (Path.pieces_of_isName rfl),
    (Path.pieces_of_isName rfl : Path.pieces "rope" = ["rope"]),
    (Path.pieces_of_isName rfl : Path.pieces "bucket.json" = ["bucket.json"])]
  rfl

theorem startOf_nil (path : String) : startOf [] path = [] := by
  unfold startOf
  split <;> rfl

/-- The rope is a link, and the way goes on from the top by the parts of its target. -/
theorem follow_rope (hrope : limit ["rope"] [] = true) (n : Nat) (rest : List String) :
    (well half).follow limit (n + 1) [] ("." :: "rope" :: rest)
      = (well half).follow limit n [] (List.replicate (half + 1) "d" ++ rest) := by
  have hroot : (well half).item? [] = some .directory := rfl
  have hitem : (well half).item? ["rope"] = some (.link (Path.nested "d" half)) := rfl
  have hparts : Path.parts (Path.nested "d" half) = List.replicate (half + 1) "d" :=
    Path.parts_nested (by decide) (Path.pieces_of_isName rfl) half
  rw [follow, descend, hroot]
  refine (if_pos rfl).trans ?_
  rw [descend_of_link hroot (Path.descends_of_isName rfl) hrope hitem, hparts, startOf_nil]

/-- Looking for the bucket below the rope comes to the last step down the well, if the limit
allows for all that is above. -/
theorem find_bucketBelow (hrope : limit ["rope"] [] = true)
    (hlimit : ∀ i ≤ 2 * half + 1, ∀ rest, limit (List.replicate i "d") rest = true) :
    (well half).find limit (Path.join "." (bucketBelow half))
      = (well half).descend limit
        (fun here target rest => (well half).follow limit 38 (startOf here target)
          (Path.parts target ++ rest))
        (List.replicate (2 * half + 1) "d") ["d", "bucket.json"] := by
  have hzero : '\x00' ∉ (Path.join "." (bucketBelow half)).toList := by
    have hmiddle : '\x00' ∉ (Path.nested "d" half).toList :=
      Path.zero_not_mem_nested (by decide) half
    rw [join_bucketBelow]
    simp [bucketBelow, hmiddle]
  have hne : Path.join "." (bucketBelow half) ≠ "" := by simp [join_bucketBelow]
  have hstart : startOf (well half).base (Path.join "." (bucketBelow half)) = [] :=
    startOf_nil _
  -- the way that the rope stands for, and the way behind it, are one way down
  have hways : List.replicate (half + 1) "d" ++ (List.replicate (half + 1) "d" ++ ["bucket.json"])
      = List.replicate (2 * half + 1) "d" ++ ["d", "bucket.json"] := by
    rw [← List.append_assoc, List.replicate_append_replicate,
      show half + 1 + (half + 1) = 2 * half + 1 + 1 by omega, List.replicate_succ',
      List.append_assoc]
    rfl
  have hdown := descend_well (show 0 + (2 * half + 1) ≤ 2 * half + 2 by omega)
    (fun i hi => hlimit i (by omega))
    (fun here target rest => (well half).follow limit 38 (startOf here target)
      (Path.parts target ++ rest)) ["d", "bucket.json"]
  rw [Nat.zero_add] at hdown
  rw [find_eq hzero hne, hstart, parts_bucketBelow]
  show (well half).follow limit (39 + 1) [] _ = _
  rw [follow_rope hrope, hways]
  exact hdown

/-- The bucket is found below the rope. -/
theorem locate_bucketBelow (h : half < 2000) :
    (well half).locate (Path.join "." (bucketBelow half)) = .ok ["bucket.json"] := by
  have hsize : (Path.join "." (bucketBelow half)).utf8ByteSize = 2 * half + 20 := by
    rw [join_bucketBelow]
    simp only [bucketBelow, String.utf8ByteSize_append, Path.utf8ByteSize_nested]
    show 1 + 1 + (4 + 1 + (half * (1 + 1) + 1) + 1 + 11) = _
    omega
  have hlink : (well half).item? (List.replicate (2 * half + 2) "d" ++ ["bucket.json"])
      = some (.link "/bucket.json") :=
    item?_of_mem (List.mem_append_left _ (by simp)) (by simp)
  refine locate_eq_ok_iff.mpr ⟨by rw [hsize]; show _ < 4096; omega, ?_⟩
  rw [find_bucketBelow rfl fun _ _ _ => rfl, descend_step (Nat.le_refl _) fun _ => rfl,
    descend_of_link (item?_well (Nat.le_refl _)) (Path.descends_of_isName rfl) rfl hlink]
  rfl

/-- **The real place of the bucket is not told**, because the last directory on the way is one
too many. -/
theorem hidden_bucketBelow (h : 2 * (2 * half + 2) = Path.lengthLimit) :
    (well half).Hidden (Path.join "." (bucketBelow half)) := by
  have hsize : ∀ i, textSize (List.replicate i "d") = i * 2 := textSize_replicate "d"
  have hlimit : ∀ i ≤ 2 * half + 1, ∀ rest, anyText (List.replicate i "d") rest = true := by
    intro i hi rest
    rw [anyText, hsize, decide_eq_true_eq, ← h]
    split <;> omega
  -- with one more directory the text is as long as no text may be
  have hdeep : anyText (List.replicate (2 * half + 1) "d" ++ ["d"]) [] = false := by
    rw [← List.replicate_succ', anyText, hsize, decide_eq_false_iff_not, ← h]
    omega
  show (well half).find anyText _ = _
  rw [find_bucketBelow (by decide) hlimit]
  exact descend_of_narrow (item?_well (by omega)) (Path.descends_of_isName rfl) hdeep

/-- What the bucket holds. -/
def water : Document := .ofList [("water", .int 1)]

theorem holds_bucket : (well half).Holds ["bucket.json"] water := ⟨_, _, rfl, rfl, rfl⟩

theorem leads_bucket : (well half).Leads "./bucket.json" ["bucket.json"] := ⟨rfl, rfl⟩

theorem place?_bucketBelow (h : half < 2000) :
    (well half).place? (Path.join "." (bucketBelow half)) = some ["bucket.json"] :=
  place?_eq_some_iff.mpr (locate_bucketBelow h)

theorem isFile_bucketBelow (h : half < 2000) :
    (well half).isFile (Path.join "." (bucketBelow half)) = true :=
  isFile_iff.mpr ⟨_, _, locate_bucketBelow h, rfl⟩

theorem isDirectory_bucketBelow (h : half < 2000) :
    (well half).isDirectory (Path.join "." (bucketBelow half)) = false := by
  unfold isDirectory
  rw [place?_bucketBelow h]
  rfl

theorem bears_bucketBelow (half : Nat) : Shelf.Bears {} (bucketBelow half) := by
  have hname : "bucket.json" = "bucket" ++ "." ++ "json" := by decide +kernel
  refine ⟨"rope" ++ "/" ++ Path.nested "d" half ++ "/" ++ "bucket", ?_⟩
  rw [bucketBelow, hname]
  simp only [String.append_assoc]
  rfl

/-- The bucket below the rope is what a document includes that lists it. -/
theorem includes_bucketBelow (h : half < 2000) :
    Shelf.includes {} (well half) (.listing [bucketBelow half])
      = .ok [.file (Path.join "." (bucketBelow half))] := by
  have hstands : Shelf.StandsFor {} (well half) (bucketBelow half)
      [.file (Path.join "." (bucketBelow half))] :=
    .file (isDirectory_bucketBelow h) (bears_bucketBelow half)
  refine Shelf.includes_eq_ok_iff.mpr ⟨_, .listing [bucketBelow half], Shelf.expands_iff.mpr ?_⟩
  rw [List.flatMap_singleton, Shelf.standsFor_iff.mp hstands]

/-- **Nothing is included of a well that is deep enough**, and nothing is told. -/
theorem resolve_bucketBelow (h : 2 * (2 * half + 2) = Path.lengthLimit) (origin : Option String) :
    Shelf.resolve {} (well half) origin (.listing [bucketBelow half])
      = .fail (.refused .nameTooLong) := by
  have hhalf : half < 2000 := by
    have hlimit : Path.lengthLimit = 4096 := rfl
    omega
  exact Shelf.resolveOn_of_misses (includes_bucketBelow hhalf)
    (.unplaced (isFile_bucketBelow hhalf) (hidden_bucketBelow h))

end DialogueTree.FileTree
