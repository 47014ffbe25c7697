import DialogueTree.Proofs.FileTree.Hidden

/-!
# Two paths to one place

Looking along a path goes from place to place. How it goes on from a place does not depend on
the way that led there, but for one thing: how many links may still be followed
(`follow_append`). A larger number finds all that a smaller one finds (`follow_of_le`). So a name
in a directory leads to the same file below every path to the directory, as long as no limit is
met on the way: not the one on links, and not the one on the length of the text that is handed
over.

That is the whole difference between two paths to one directory, and it is one that can be met
(`Strained`).
-/

namespace DialogueTree.FileTree

variable {t : FileTree} {here place : Place} {parts : List String} {path path' name : String}

/-! ## One part after the other -/

/-- **All that can happen at a part of a path.** The way ends; or it goes on from another place;
or a link is handed on. Which of them it is, and where it goes on, is a matter of the tree. -/
theorem descend_cons (t : FileTree) (here : Place) (part : String) :
    (∃ fault, fault ≠ .tooManyLinks
      ∧ ∀ jump rest, t.descend anyDepth jump here (part :: rest) = .error fault) ∨
    (∃ next, ∀ jump rest,
      t.descend anyDepth jump here (part :: rest) = t.descend anyDepth jump next rest) ∨
    ∃ target, ∀ jump rest, t.descend anyDepth jump here (part :: rest) = jump here target rest := by
  cases hhere : t.item? here with
  | none => exact .inl ⟨.missing, by decide, fun jump rest => by rw [descend, hhere]⟩
  | some item =>
    cases item with
    | file bytes => exact .inl ⟨.notDirectory, by decide, fun jump rest => by rw [descend, hhere]⟩
    | link target => exact .inl ⟨.notDirectory, by decide, fun jump rest => by rw [descend, hhere]⟩
    | directory =>
      by_cases hdot : part = "."
      · exact .inr (.inl ⟨here, fun jump rest => by rw [descend, hhere]; exact if_pos hdot⟩)
      · by_cases hup : part = ".."
        · refine .inr (.inl ⟨here.dropLast, fun jump rest => ?_⟩)
          rw [descend, hhere]
          exact (if_neg hdot).trans (if_pos hup)
        · by_cases hlong : Path.partLimit < part.utf8ByteSize
          · refine .inl ⟨.nameTooLong, by decide, fun jump rest => ?_⟩
            rw [descend, hhere]
            exact (if_neg hdot).trans ((if_neg hup).trans (if_pos hlong))
          · have hpart : Path.Descends part := ⟨hdot, hup, Nat.not_lt.mp hlong⟩
            cases hnext : t.item? (here ++ [part]) with
            | none =>
              refine .inl ⟨.missing, by decide, fun jump rest => ?_⟩
              exact descend_of_none hhere hpart rfl hnext
            | some item =>
              cases item with
              | link target =>
                exact .inr (.inr ⟨target, fun jump rest => descend_of_link hhere hpart rfl hnext⟩)
              | file bytes =>
                exact .inr (.inl ⟨here ++ [part], fun jump rest =>
                  descend_of_item hhere hpart (fun _ => rfl) hnext (by rintro _ ⟨⟩)⟩)
              | directory =>
                exact .inr (.inl ⟨here ++ [part], fun jump rest =>
                  descend_of_item hhere hpart (fun _ => rfl) hnext (by rintro _ ⟨⟩)⟩)

/-- The same with a number of links that may be followed. Only a link makes it smaller, and only
a link fails if it is none. -/
theorem follow_cons (t : FileTree) (here : Place) (part : String) :
    (∃ fault, fault ≠ .tooManyLinks
      ∧ ∀ n rest, t.follow anyDepth n here (part :: rest) = .error fault) ∨
    (∃ next, ∀ n rest, t.follow anyDepth n here (part :: rest) = t.follow anyDepth n next rest) ∨
    ∃ target, (∀ rest, t.follow anyDepth 0 here (part :: rest) = .error .tooManyLinks)
      ∧ ∀ n rest, t.follow anyDepth (n + 1) here (part :: rest)
        = t.follow anyDepth n (startOf here target) (Path.parts target ++ rest) := by
  have hjump : ∀ n, ∃ jump, t.follow anyDepth n = t.descend anyDepth jump := by
    intro n
    cases n with
    | zero => exact ⟨_, rfl⟩
    | succ n => exact ⟨_, rfl⟩
  rcases t.descend_cons here part with ⟨fault, hne, hfault⟩ | ⟨next, hnext⟩ | ⟨target, htarget⟩
  · refine .inl ⟨fault, hne, fun n rest => ?_⟩
    obtain ⟨jump, hn⟩ := hjump n
    rw [hn, hfault]
  · refine .inr (.inl ⟨next, fun n rest => ?_⟩)
    obtain ⟨jump, hn⟩ := hjump n
    rw [hn, hnext]
  · exact .inr (.inr ⟨target, fun rest => htarget _ rest, fun n rest => htarget _ rest⟩)

theorem follow_nil (t : FileTree) (n : Nat) (here : Place) :
    t.follow anyDepth n here [] = .ok here := by
  cases n with
  | zero => rfl
  | succ n => rfl

/-- **How a path goes on depends on the place that it has come to**, and on how many links are
left there. If it has come to none, nothing follows. -/
theorem follow_append (t : FileTree) (n : Nat) (here : Place) (parts : List String) :
    (∃ fault, ∀ more, t.follow anyDepth n here (parts ++ more) = .error fault) ∨
    ∃ m ≤ n, ∃ mid, ∀ more,
      t.follow anyDepth n here (parts ++ more) = t.follow anyDepth m mid more := by
  -- on the number of links, and below that on the parts that are left
  induction n using Nat.strongRecOn generalizing here parts with
  | ind n ihlinks =>
    induction parts generalizing here with
    | nil => exact .inr ⟨n, le_rfl, here, fun more => rfl⟩
    | cons part rest ihparts =>
      rcases t.follow_cons here part with
        ⟨fault, -, hfault⟩ | ⟨next, hnext⟩ | ⟨target, hzero, hsucc⟩
      · exact .inl ⟨fault, fun more => hfault n (rest ++ more)⟩
      · simp only [List.cons_append, hnext]
        exact ihparts next
      · cases n with
        | zero => exact .inl ⟨.tooManyLinks, fun more => hzero (rest ++ more)⟩
        | succ n =>
          simp only [List.cons_append, hsucc, ← List.append_assoc]
          rcases ihlinks n (Nat.lt_succ_self n) (startOf here target) (Path.parts target ++ rest)
            with hfails | ⟨m, hm, mid, hmid⟩
          · exact .inl hfails
          · exact .inr ⟨m, Nat.le_succ_of_le hm, mid, hmid⟩

/-- **More links find the same**, if it was not for want of links that nothing was found. -/
theorem follow_of_le {n m : Nat} (hle : n ≤ m)
    (h : t.follow anyDepth n here parts ≠ .error .tooManyLinks) :
    t.follow anyDepth m here parts = t.follow anyDepth n here parts := by
  induction n using Nat.strongRecOn generalizing here parts m with
  | ind n ihlinks =>
    induction parts generalizing here with
    | nil => rw [follow_nil, follow_nil]
    | cons part rest ihparts =>
      rcases t.follow_cons here part with
        ⟨fault, -, hfault⟩ | ⟨next, hnext⟩ | ⟨target, hzero, hsucc⟩
      · rw [hfault, hfault]
      · rw [hnext] at h ⊢
        rw [hnext]
        exact ihparts h
      · cases n with
        | zero => exact absurd (hzero rest) h
        | succ n =>
          obtain ⟨m, rfl⟩ : ∃ m', m = m' + 1 := Nat.exists_eq_add_one.mpr (by omega)
          rw [hsucc] at h ⊢
          rw [hsucc]
          exact ihlinks n (Nat.lt_succ_self n) (by omega) h

/-! ## A name below a path -/

theorem eq_of_follow_dot {n : Nat} (h : t.follow anyDepth n here ["."] = .ok place) :
    here = place := by
  have hdot : ∀ jump, t.descend anyDepth jump here ["."] = .ok place → here = place := by
    intro jump hjump
    rw [descend] at hjump
    split at hjump
    · cases hjump
      rfl
    · cases hjump
    · cases hjump
  cases n with
  | zero => exact hdot _ h
  | succ n => exact hdot _ h

/-- A path that leads to a place leads there without the dot for its last slash, too. -/
theorem exists_follow_pieces {n : Nat}
    (h : t.follow anyDepth n here (Path.parts path) = .ok place) :
    ∃ m, ∀ more,
      t.follow anyDepth n here (Path.pieces path ++ more) = t.follow anyDepth m place more := by
  rcases t.follow_append n here (Path.pieces path) with ⟨fault, hfault⟩ | ⟨m, -, mid, hmid⟩
  · have hfails := hfault []
    rw [List.append_nil] at hfails
    rcases Path.parts_eq_or path with hparts | hparts
    · rw [hparts, hfails] at h
      cases h
    · rw [hparts, hfault] at h
      cases h
  · have hends := hmid []
    rw [List.append_nil, follow_nil] at hends
    have hplace : mid = place := by
      rcases Path.parts_eq_or path with hparts | hparts
      · rw [hparts, hends] at h
        exact Except.ok.inj h
      · rw [hparts, hmid] at h
        exact eq_of_follow_dot h
    exact ⟨m, hplace ▸ hmid⟩

/-- **A name below a path is looked up at the place of the path.** Some of the links may be used
up by then. -/
theorem exists_find_join (h : t.find anyDepth path = .ok place) :
    ∃ m, ∀ name, Path.isName name = true →
      t.find anyDepth (Path.join path name) = t.follow anyDepth m place [name] := by
  obtain ⟨hzero, hne, hfollow⟩ := find_eq_ok_iff.mp h
  obtain ⟨m, hm⟩ := exists_follow_pieces hfollow
  refine ⟨m, fun name hname => ?_⟩
  have hstart : startOf t.base (Path.join path name) = startOf t.base path := by
    unfold startOf
    rw [Path.isAbsolute_join hne hname]
  rw [← hm, find, hstart, Path.parts_join hne hname]
  simp [Path.zero_mem_join_iff hname, hzero, Path.join_ne_empty hne hname]

/-! ## Paths to one directory -/

/-- A path is refused for its length, or for the number of links on it, whatever it may lead
to. -/
def Strained (t : FileTree) (path : String) : Prop :=
  t.locate path = .error .nameTooLong ∨ t.locate path = .error .tooManyLinks

instance (t : FileTree) (path : String) : Decidable (t.Strained path) :=
  inferInstanceAs (Decidable (_ ∨ _))

theorem strained_of_length (hzero : '\x00' ∉ path.toList)
    (hlong : Path.lengthLimit ≤ path.utf8ByteSize) : t.Strained path :=
  .inl (by simp [locate, hzero, hlong])

/-- What is not refused stays below both limits. -/
theorem of_not_strained (hzero : '\x00' ∉ path.toList) (h : ¬ t.Strained path) :
    path.utf8ByteSize < Path.lengthLimit ∧ t.find anyDepth path ≠ .error .tooManyLinks := by
  have hlocate : t.locate path
      = if Path.lengthLimit ≤ path.utf8ByteSize then .error .nameTooLong
        else t.find anyDepth path := by
    simp [locate, hzero]
  unfold Strained at h
  rw [hlocate] at h
  by_cases hlong : Path.lengthLimit ≤ path.utf8ByteSize
  · exact absurd (.inl (if_pos hlong)) h
  · rw [if_neg hlong] at h
    exact ⟨Nat.not_le.mp hlong, fun hlinks => h (.inr hlinks)⟩

theorem Strained.isFile_eq_false (h : t.Strained path) : t.isFile path = false := by
  rw [← Bool.not_eq_true, isFile_iff]
  rintro ⟨place, bytes, hlocate, -⟩
  rcases h with hlong | hlinks
  · cases hlong.symm.trans hlocate
  · cases hlinks.symm.trans hlocate

/-- Paths to directories that lead to one place. -/
theorem exists_locate_of_place? (hdirectory : t.isDirectory path = true)
    (hplace : t.place? path = t.place? path') :
    ∃ place, t.locate path = .ok place ∧ t.locate path' = .ok place := by
  obtain ⟨place, hlocate, -⟩ := isDirectory_iff.mp hdirectory
  have hplace' := place?_eq_some_iff.mpr hlocate
  rw [hplace] at hplace'
  exact ⟨place, hlocate, place?_eq_some_iff.mp hplace'⟩

theorem isDirectory_eq_of_place? (hplace : t.place? path = t.place? path') :
    t.isDirectory path = t.isDirectory path' := by
  unfold isDirectory
  rw [hplace]

theorem list_eq_of_place? (hdirectory : t.isDirectory path = true)
    (hplace : t.place? path = t.place? path') : t.list path = t.list path' := by
  obtain ⟨place, hlocate, hlocate'⟩ := exists_locate_of_place? hdirectory hplace
  unfold list
  rw [hlocate, hlocate']

/-- **A name is found through every path to a directory**, unless one is refused for its length
or its links. -/
theorem locate_join (hdirectory : t.isDirectory path = true)
    (hplace : t.place? path = t.place? path') (hname : Path.isName name = true)
    (hfree : ¬ t.Strained (Path.join path' name))
    (h : t.locate (Path.join path name) = .ok place) :
    t.locate (Path.join path' name) = .ok place := by
  obtain ⟨directory, hopened, hopened'⟩ := exists_locate_of_place? hdirectory hplace
  have hfind' : t.find anyDepth path' = .ok directory := (locate_eq_ok_iff.mp hopened').2
  obtain ⟨n, hn⟩ := exists_find_join (locate_eq_ok_iff.mp hopened).2
  obtain ⟨m, hm⟩ := exists_find_join hfind'
  have hfound : t.follow anyDepth n directory [name] = .ok place := by
    rw [← hn name hname]
    exact (locate_eq_ok_iff.mp h).2
  have hzero : '\x00' ∉ (Path.join path' name).toList :=
    mt (Path.zero_mem_join_iff hname).mp (find_eq_ok_iff.mp hfind').1
  -- neither the length nor the links are in the way
  obtain ⟨hshort, hlinks⟩ := of_not_strained hzero hfree
  rw [hm name hname] at hlinks
  have hfound' : t.follow anyDepth m directory [name] = .ok place := by
    rcases Nat.le_total n m with hle | hle
    · rw [follow_of_le hle (by rw [hfound]; nofun), hfound]
    · rw [← follow_of_le hle hlinks, hfound]
  rw [locate_eq_ok_iff, hm name hname]
  exact ⟨hshort, hfound'⟩

/-! ## A directory in dots -/

theorem follow_dots (hhere : t.item? here = some .directory) (limit : Limit) (n k : Nat) :
    t.follow limit n here (List.replicate k ".") = .ok here := by
  have hdescend : ∀ jump, t.descend limit jump here (List.replicate k ".") = .ok here := by
    intro jump
    induction k with
    | zero => rfl
    | succ k ih =>
      rw [List.replicate_succ, descend, hhere]
      exact (if_pos rfl).trans ih
  cases n with
  | zero => exact hdescend _
  | succ n => exact hdescend _

/-- The working directory may be spelt with dots, and is told then. -/
theorem find_dots (hbase : t.item? t.base = some .directory) (limit : Limit) (n : Nat) :
    t.find limit (Path.nested "." n) = .ok t.base := by
  have hdot : "." ≠ "" := by decide
  rw [find_eq_ok_iff, Path.parts_nested (by decide) (by rfl), startOf, Path.isAbsolute_nested hdot]
  exact ⟨Path.zero_not_mem_nested (by decide) n, Path.nested_ne_empty hdot n,
    follow_dots hbase _ _ _⟩

end DialogueTree.FileTree
