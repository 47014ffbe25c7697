import DialogueTree.CommandLine
import DialogueTree.Proofs.Node.Reading
import Mathlib.Data.List.TakeWhile
import Mathlib.Tactic.MkIffOfInductiveProp

/-!
# What arguments ask for

Arguments are taken one by one, with an option that may wait for its value and with what was
found before them. Said without all this they are a small language: an argument, or two of them,
or a letter behind a dash, spells out one wish (`Spelt`). Arguments ask for a walk if what they
spell out names one file and repeats no option (`Asks`).

The two sides meet in the middle. Taking arguments that spell out some wishes is granting these
wishes in turn (`Spelt.readOn`), and arguments that are taken to ask for a walk spell something
out (`legible`).
-/

namespace DialogueTree

/-! ## The language of arguments -/

/-- One thing that arguments can wish for. -/
inductive Wish where
  | file (path : String)
  | option (o : ValueOption) (value : String)
  | verbose
  deriving Repr, DecidableEq

namespace Wish

/-- The files that are wished for. -/
def files : List Wish → List String
  | [] => []
  | .file path :: rest => path :: files rest
  | _ :: rest => files rest

/-- The values that an option is wished to have. -/
def values (o : ValueOption) : List Wish → List String
  | [] => []
  | .option o' value :: rest => if o' = o then value :: values o rest else values o rest
  | _ :: rest => values o rest

end Wish

/-- A text that is not taken for an option: it does not begin with a dash, or is only one. -/
def IsValue (s : String) : Prop := s = "-" ∨ s.toList.head? ≠ some '-'

/-- Arguments, and the wishes that they spell out one after the other. The letters are those
behind a dash that are still to be read before the arguments. -/
inductive Spelt : List Char → List String → List Wish → Prop where
  | done : Spelt [] [] []
  | file {path : String} {rest : List String} {wishes : List Wish} :
      IsValue path → Spelt [] rest wishes → Spelt [] (path :: rest) (.file path :: wishes)
  | files (paths : List String) : Spelt [] ("--" :: paths) (paths.map .file)
  | apart {value : String} {rest : List String} {wishes : List Wish} (o : ValueOption) :
      IsValue value → Spelt [] rest wishes →
      Spelt [] (("--" ++ o.name) :: value :: rest) (.option o value :: wishes)
  | joined {rest : List String} {wishes : List Wish} (o : ValueOption) (value : String) :
      Spelt [] rest wishes →
      Spelt [] (("--" ++ o.name ++ "=" ++ value) :: rest) (.option o value :: wishes)
  | verbose {rest : List String} {wishes : List Wish} :
      Spelt [] rest wishes → Spelt [] ("--verbose" :: rest) (.verbose :: wishes)
  | letters {letters : List Char} {rest : List String} {wishes : List Wish} :
      letters ≠ [] → Spelt letters rest wishes →
      Spelt [] (String.ofList ('-' :: letters) :: rest) wishes
  | letterVerbose {letters : List Char} {rest : List String} {wishes : List Wish} :
      Spelt letters rest wishes → Spelt ('v' :: letters) rest (.verbose :: wishes)
  | letterApart {value : String} {rest : List String} {wishes : List Wish} :
      IsValue value → Spelt [] rest wishes →
      Spelt ['s'] (value :: rest) (.option .start value :: wishes)
  | letterEquals {rest : List String} {wishes : List Wish} (value : List Char) :
      Spelt [] rest wishes →
      Spelt ('s' :: '=' :: value) rest (.option .start (String.ofList value) :: wishes)
  | letterJoined {value : List Char} {rest : List String} {wishes : List Wish} :
      value ≠ [] → value.head? ≠ some '=' → Spelt [] rest wishes →
      Spelt ('s' :: value) rest (.option .start (String.ofList value) :: wishes)

/-- What wishes come to that are for a walk. -/
structure Wished (wishes : List Wish) (file : String) (settings : Settings) (verbose : Bool) :
    Prop where
  /-- One file is named, and not by the empty text. -/
  file : Wish.files wishes = [file] ∧ file ≠ ""
  /-- The start is given at most once. -/
  start : ∃ given : Option String, Wish.values .start wishes = given.toList
    ∧ settings.start = given.getD "::START"
  /-- The directory is given at most once, and not by the empty text. -/
  root : ∃ given : Option String, Wish.values .root wishes = given.toList
    ∧ given ≠ some "" ∧ settings.shelf = ⟨given.getD ".", "json"⟩
  /-- The full log is wished for at most once. -/
  verbose : wishes.count .verbose = verbose.toNat

/-- Arguments that ask for the walk of a document. -/
def Asks (arguments : List String) (file : String) (settings : Settings) (verbose : Bool) : Prop :=
  ∃ wishes, Spelt [] arguments wishes ∧ Wished wishes file settings verbose

/-! ## Granting wishes -/

theorem toList_eq_append_cons_iff {α : Type} {o o' : Option α} {a : α} {rest : List α} :
    o'.toList = o.toList ++ a :: rest ↔ o = none ∧ o'.toList = a :: rest := by
  cases o <;> cases o' <;> simp

theorem toNat_eq_add_succ_iff {b b' : Bool} {n : Nat} :
    b'.toNat = b.toNat + (n + 1) ↔ b = false ∧ b'.toNat = n + 1 := by
  cases b <;> cases b' <;> simp

namespace Findings

variable {f f' : Findings} {wishes : List Wish}

/-- Takes what is wished for. -/
def grant (f : Findings) : Wish → Except ArgumentFault Findings
  | .file path => f.addFile path
  | .option o value => f.addValue value o
  | .verbose => f.addVerbose

/-- Findings with what has been wished for since. That nothing is found twice is in the lengths
of the lists. -/
@[mk_iff]
structure Granted (f : Findings) (wishes : List Wish) (f' : Findings) : Prop where
  file : f'.file.toList = f.file.toList ++ Wish.files wishes
  named : "" ∉ Wish.files wishes
  start : f'.start.toList = f.start.toList ++ Wish.values .start wishes
  root : f'.root.toList = f.root.toList ++ Wish.values .root wishes
  rooted : "" ∉ Wish.values .root wishes
  verbose : f'.verbose.toNat = f.verbose.toNat + wishes.count .verbose

theorem grant_file_eq_ok_iff {path : String} :
    f.grant (.file path) = .ok f' ↔
      (f.file = none ∧ path ≠ "") ∧ f' = { f with file := some path } := by
  show f.addFile path = .ok f' ↔ _
  unfold addFile
  cases f.file with
  | some given => simp
  | none => by_cases hempty : path = "" <;> simp [hempty, eq_comm (a := f')]

theorem grant_start_eq_ok_iff {value : String} :
    f.grant (.option .start value) = .ok f' ↔
      f.start = none ∧ f' = { f with start := some value } := by
  show f.addValue value .start = .ok f' ↔ _
  unfold addValue
  cases f.start <;> simp [eq_comm (a := f')]

theorem grant_root_eq_ok_iff {value : String} :
    f.grant (.option .root value) = .ok f' ↔
      (f.root = none ∧ value ≠ "") ∧ f' = { f with root := some value } := by
  show f.addValue value .root = .ok f' ↔ _
  unfold addValue
  cases f.root with
  | some given => simp
  | none => by_cases hempty : value = "" <;> simp [hempty, eq_comm (a := f')]

theorem grant_verbose_eq_ok_iff :
    f.grant .verbose = .ok f' ↔ f.verbose = false ∧ f' = { f with verbose := true } := by
  show f.addVerbose = .ok f' ↔ _
  unfold addVerbose
  cases f.verbose <;> simp [eq_comm (a := f')]

/-- The first wish is granted, and then the others. -/
theorem granted_cons_iff {first : Wish} :
    f.Granted (first :: wishes) f' ↔ ∃ g, f.grant first = .ok g ∧ g.Granted wishes f' := by
  -- what the first wish fills has room for one only, so it was empty; all else stays
  cases first with
  | file path =>
    simp only [granted_iff, grant_file_eq_ok_iff, and_assoc, exists_and_left, exists_eq_left,
      Wish.files, Wish.values, toList_eq_append_cons_iff]
    grind
  | option o value =>
    cases o with
    | start =>
      simp only [granted_iff, grant_start_eq_ok_iff, and_assoc, exists_and_left, exists_eq_left,
        Wish.files, Wish.values, if_true, reduceCtorEq, if_false, toList_eq_append_cons_iff]
      grind
    | root =>
      simp only [granted_iff, grant_root_eq_ok_iff, and_assoc, exists_and_left, exists_eq_left,
        Wish.files, Wish.values, if_true, reduceCtorEq, if_false, toList_eq_append_cons_iff]
      grind
  | verbose =>
    simp only [granted_iff, grant_verbose_eq_ok_iff, and_assoc, exists_and_left, exists_eq_left,
      Wish.files, Wish.values, List.count_cons_self, toNat_eq_add_succ_iff]
    grind

/-- **Wishes are granted in turn** exactly if each of them can be, and what has been found then
is what was wished for. -/
theorem foldlM_grant_eq_ok_iff : wishes.foldlM grant f = .ok f' ↔ f.Granted wishes f' := by
  induction wishes generalizing f with
  | nil =>
    obtain ⟨file, start, root, verbose⟩ := f
    obtain ⟨file', start', root', verbose'⟩ := f'
    have hlist {o o' : Option String} : o'.toList = o.toList ↔ o = o' := by
      cases o <;> cases o' <;> simp [eq_comm]
    have hbool : verbose'.toNat = verbose.toNat ↔ verbose = verbose' := by
      cases verbose <;> cases verbose' <;> simp
    simp [granted_iff, Wish.files, Wish.values, hlist, hbool, pure, Except.pure]
  | cons first rest ih =>
    rw [List.foldlM_cons, bind_eq_ok_iff, granted_cons_iff]
    simp only [ih]

theorem request_eq_play_iff {file : String} {settings : Settings} {verbose : Bool} :
    f.request = .ok (.play file settings verbose) ↔
      f.file = some file ∧ settings.start = f.start.getD "::START"
        ∧ settings.shelf = ⟨f.root.getD ".", "json"⟩ ∧ verbose = f.verbose := by
  obtain ⟨start, shelf⟩ := settings
  unfold request
  cases f.file with
  | none => simp
  | some given =>
    simp only [Reserved.start, Reserved.extension, Except.ok.injEq, Request.play.injEq,
      Settings.mk.injEq, Option.some.injEq, eq_comm (b := verbose), and_assoc]
    exact and_congr_right fun _ => by rw [eq_comm, eq_comm (a := shelf)]

/-- All wishes together ask for a walk exactly if they can be granted and are for one. -/
theorem grant_request_iff {file : String} {settings : Settings} {verbose : Bool} :
    (wishes.foldlM grant {} >>= request) = .ok (.play file settings verbose) ↔
      Wished wishes file settings verbose := by
  simp only [bind_eq_ok_iff, foldlM_grant_eq_ok_iff, request_eq_play_iff]
  constructor
  · intro h
    obtain ⟨f, h, hfile, hstart, hshelf, rfl⟩ := h
    have hfiles : Wish.files wishes = [file] := by
      have hfound := h.file
      rw [hfile] at hfound
      exact hfound.symm
    have hroots : Wish.values .root wishes = f.root.toList := h.root.symm
    refine ⟨⟨hfiles, ?_⟩, ⟨f.start, h.start.symm, hstart⟩, ⟨f.root, hroots, ?_, hshelf⟩, ?_⟩
    · rintro rfl
      exact h.named (hfiles ▸ List.mem_cons_self)
    · intro hempty
      exact h.rooted (by rw [hroots, hempty]; exact List.mem_cons_self)
    · exact (Nat.zero_add _).symm.trans h.verbose.symm
  · intro h
    obtain ⟨⟨hfiles, hnamed⟩, ⟨start, hstarts, hstart⟩, ⟨root, hroots, hrooted, hshelf⟩,
      hcount⟩ := h
    refine ⟨⟨some file, start, root, verbose⟩, ⟨?_, ?_, ?_, ?_, ?_, ?_⟩, rfl, hstart, hshelf, rfl⟩
    · exact hfiles.symm
    · simpa [hfiles, eq_comm] using hnamed
    · exact hstarts.symm
    · exact hroots.symm
    · simpa [hroots] using hrooted
    · exact hcount.symm.trans (Nat.zero_add _).symm

end Findings

/-! ## Shapes of arguments -/

namespace Argument

/-- The text of an argument. -/
def text : Argument → String
  | .separator => "--"
  | .long name none => "--" ++ name
  | .long name (some value) => "--" ++ name ++ "=" ++ value
  | .short letters => String.ofList ('-' :: letters)
  | .plain value => value

/-- An argument of which the text has no other shape. -/
def Proper : Argument → Prop
  | .separator => True
  | .long name value => '=' ∉ name.toList ∧ (name = "" → value ≠ none)
  | .short letters => letters ≠ [] ∧ letters.head? ≠ some '-'
  | .plain value => IsValue value

theorem ofText_of_dashes {s : String} {cs : List Char} (hs : s.toList = '-' :: '-' :: cs)
    (hne : cs ≠ []) :
    ofText s = .long (String.ofList (cs.takeWhile (· != '=')))
      ((cs.dropWhile (· != '=')).tail?.map String.ofList) := by
  unfold ofText
  rw [hs]
  split
  · next heq => simp_all
  · next rest hrest heq =>
    obtain rfl : cs = rest := by simpa using heq
    dsimp only
    cases cs.dropWhile (· != '=') <;> rfl
  · next hdash heq => exact absurd (List.cons_eq_cons.mp (List.cons_eq_cons.mp heq).2).1.symm hdash
  · next hlong hshort => exact absurd rfl (hlong cs)

theorem ofText_of_dash {s : String} {c : Char} {cs : List Char} (hs : s.toList = '-' :: c :: cs)
    (hc : c ≠ '-') : ofText s = .short (c :: cs) := by
  unfold ofText
  rw [hs]
  split <;> simp_all

theorem ofText_of_isValue {s : String} (h : IsValue s) : ofText s = .plain s := by
  rcases h with rfl | h
  · rfl
  · unfold ofText
    split <;> simp_all

/-- **The shape of an argument is told from its text.** -/
theorem ofText_text {a : Argument} (h : a.Proper) : ofText a.text = a := by
  cases a with
  | separator => rfl
  | long name value =>
    obtain ⟨hname, hvalue⟩ := h
    have hbefore : ∀ c ∈ name.toList, (c != '=') = true := by
      intro c hc
      exact bne_iff_ne.mpr fun heq => hname (heq ▸ hc)
    cases value with
    | none =>
      have hne : name.toList ≠ [] := fun hnil => hvalue (by simpa using hnil) rfl
      have htext : (long name none).text.toList = '-' :: '-' :: name.toList := by simp [text]
      rw [ofText_of_dashes htext hne, List.takeWhile_eq_self_iff.mpr hbefore,
        List.dropWhile_eq_nil_iff.mpr hbefore]
      simp
    | some value =>
      have htext : (long name (some value)).text.toList
          = '-' :: '-' :: (name.toList ++ '=' :: value.toList) := by simp [text]
      rw [ofText_of_dashes htext (by simp), List.takeWhile_append_of_pos hbefore,
        List.dropWhile_append_of_pos hbefore]
      simp
  | short letters =>
    obtain ⟨hne, hdash⟩ := h
    obtain ⟨c, cs, rfl⟩ := List.exists_cons_of_ne_nil hne
    exact ofText_of_dash (by simp [text]) fun hc => hdash (congrArg some hc)
  | plain value => exact ofText_of_isValue h

/-- Every text has one of the shapes. -/
theorem exists_text (s : String) : ∃ a : Argument, a.Proper ∧ a.text = s := by
  by_cases hvalue : IsValue s
  · exact ⟨.plain s, hvalue, rfl⟩
  obtain ⟨hone, hdash⟩ := not_or.mp hvalue
  obtain ⟨cs, hcs⟩ := List.head?_eq_some_iff.mp (not_not.mp hdash)
  obtain rfl : s = String.ofList ('-' :: cs) := by rw [← hcs, String.ofList_toList]
  -- behind a dash it is the second character that tells, and for two dashes the equals sign
  cases cs with
  | nil => exact absurd rfl hone
  | cons c cs =>
    by_cases hc : c = '-'
    · subst hc
      by_cases hequals : '=' ∈ cs
      · obtain ⟨name, value, rfl, hname⟩ := List.eq_append_cons_of_mem hequals
        refine ⟨.long (String.ofList name) (some (String.ofList value)), ⟨?_, fun _ => nofun⟩, ?_⟩
        · simpa using hname
        · simp [text, String.ext_iff]
      · cases cs with
        | nil => exact ⟨.separator, trivial, rfl⟩
        | cons c cs =>
          refine ⟨.long (String.ofList (c :: cs)) none, ⟨?_, ?_⟩, ?_⟩
          · simpa using hequals
          · simp
          · simp [text, String.ext_iff]
    · exact ⟨.short (c :: cs), ⟨List.cons_ne_nil _ _, fun heq => hc (Option.some.inj heq)⟩, rfl⟩

end Argument

/-! ## Taking arguments -/

namespace Findings

variable {f : Findings} {rest : List String} {r : Request}

/-- Takes letters that are still to be read, and then arguments. -/
def readOn (f : Findings) (letters : List Char) (arguments : List String) :
    Except ArgumentFault Request := do
  match ← f.addLetters letters with
  | .found f' => addAll f' none arguments
  | .request r => .ok r
  | .pending f' => addAll f' (some .start) arguments

theorem proper_option (o : ValueOption) (value : Option String) :
    (Argument.long o.name value).Proper := by
  cases o <;> exact ⟨by decide, fun h => absurd h (by decide)⟩

theorem addAll_pending (f : Findings) (o : ValueOption) {value : String} (h : IsValue value)
    (rest : List String) :
    f.addAll (some o) (value :: rest) =
      f.grant (.option o value) >>= fun f' => f'.readOn [] rest := by
  unfold addAll
  rw [Argument.ofText_of_isValue h]
  rfl

theorem readOn_name (f : Findings) (o : ValueOption) (rest : List String) :
    f.readOn [] (("--" ++ o.name) :: rest) = f.addAll (some o) rest := by
  show f.addAll none ((Argument.long o.name none).text :: rest) = _
  conv =>
    lhs
    unfold addAll
  rw [Argument.ofText_text (proper_option o none)]
  cases o <;> rfl

theorem readOn_joined (f : Findings) (o : ValueOption) (value : String) (rest : List String) :
    f.readOn [] (("--" ++ o.name ++ "=" ++ value) :: rest) =
      f.grant (.option o value) >>= fun f' => f'.readOn [] rest := by
  show f.addAll none ((Argument.long o.name (some value)).text :: rest) = _
  unfold addAll
  rw [Argument.ofText_text (proper_option o (some value))]
  cases o <;> rfl

theorem readOn_letters (f : Findings) {letters : List Char} (hne : letters ≠ [])
    (hdash : letters.head? ≠ some '-') (rest : List String) :
    f.readOn [] (String.ofList ('-' :: letters) :: rest) = f.readOn letters rest := by
  have hproper : (Argument.short letters).Proper := ⟨hne, hdash⟩
  show f.addAll none (Argument.text (.short letters) :: rest) = _
  unfold addAll
  rw [Argument.ofText_text hproper]
  rfl

theorem readOn_file (f : Findings) {path : String} (h : IsValue path) (rest : List String) :
    f.readOn [] (path :: rest) = f.grant (.file path) >>= fun f' => f'.readOn [] rest := by
  show f.addAll none _ = _
  unfold addAll
  rw [Argument.ofText_of_isValue h]
  rfl

theorem addFiles_eq (f : Findings) (paths : List String) :
    f.addFiles paths = (paths.map Wish.file).foldlM grant f := by
  induction paths generalizing f with
  | nil => rfl
  | cons path rest ih =>
    rw [addFiles, List.map_cons, List.foldlM_cons]
    exact congrArg _ (funext ih)

theorem readOn_letterVerbose (f : Findings) (letters : List Char) (arguments : List String) :
    f.readOn ('v' :: letters) arguments =
      f.grant .verbose >>= fun f' => f'.readOn letters arguments := by
  unfold readOn
  rw [addLetters, bind_assoc]
  rfl

theorem attached?_of_ne {letters : List Char} (hne : letters ≠ [])
    (hequals : letters.head? ≠ some '=') : attached? letters = some (String.ofList letters) := by
  unfold attached?
  split <;> simp_all

theorem readOn_letterStart (f : Findings) {letters : List Char} {value : String}
    (h : attached? letters = some value) (rest : List String) :
    f.readOn ('s' :: letters) rest =
      f.grant (.option .start value) >>= fun f' => f'.readOn [] rest := by
  unfold readOn
  rw [addLetters, h]
  show (f.addValue value .start).map Letters.found >>= _ = f.addValue value .start >>= _
  cases f.addValue value .start <;> rfl

theorem readOn_of_first {letters letters' : List Char} {arguments rest : List String}
    {first : Wish} {wishes : List Wish}
    (hfirst : f.readOn letters arguments = f.grant first >>= fun f' => f'.readOn letters' rest)
    (hrest : ∀ f' : Findings, f'.readOn letters' rest = wishes.foldlM grant f' >>= request) :
    f.readOn letters arguments = (first :: wishes).foldlM grant f >>= request := by
  rw [hfirst, List.foldlM_cons, bind_assoc]
  simp only [hrest]

end Findings

open Findings

theorem Spelt.head?_letters {letters : List Char} {arguments : List String} {wishes : List Wish}
    (h : Spelt letters arguments wishes) : letters.head? ≠ some '-' := by
  cases h <;> simp

/-- **Taking arguments is granting in turn what they spell out**, whatever was found before. -/
theorem Spelt.readOn {letters : List Char} {arguments : List String} {wishes : List Wish}
    (h : Spelt letters arguments wishes) (f : Findings) :
    f.readOn letters arguments = wishes.foldlM grant f >>= request := by
  induction h generalizing f with
  | done => rfl
  | file hvalue _ ih => exact readOn_of_first (readOn_file f hvalue _) ih
  | files paths =>
    rw [← addFiles_eq]
    rfl
  | apart o hvalue _ ih =>
    exact readOn_of_first ((readOn_name f o _).trans (addAll_pending f o hvalue _)) ih
  | joined o value _ ih => exact readOn_of_first (readOn_joined f o value _) ih
  | verbose _ ih => exact readOn_of_first rfl ih
  | letters hne hletters ih => rw [readOn_letters f hne hletters.head?_letters, ih]
  | letterVerbose _ ih => exact readOn_of_first (readOn_letterVerbose f _ _) ih
  | letterApart hvalue _ ih => exact readOn_of_first (addAll_pending f .start hvalue _) ih
  | letterEquals value _ ih => exact readOn_of_first (readOn_letterStart f rfl _) ih
  | letterJoined hne hequals _ ih =>
    exact readOn_of_first (readOn_letterStart f (attached?_of_ne hne hequals) _) ih

/-! ## Arguments that are taken -/

/-- Arguments that spell something out if they are taken to ask for a walk: as they stand, and
with an option before them that waits for its value. -/
structure Legible (arguments : List String) : Prop where
  all {f : Findings} {file : String} {settings : Settings} {verbose : Bool} :
    f.readOn [] arguments = .ok (.play file settings verbose) →
      ∃ wishes, Spelt [] arguments wishes
  pending {f : Findings} {o : ValueOption} {file : String} {settings : Settings}
    {verbose : Bool} : f.addAll (some o) arguments = .ok (.play file settings verbose) →
      ∃ value rest wishes, arguments = value :: rest ∧ IsValue value ∧ Spelt [] rest wishes

namespace Legible

variable {f : Findings} {arguments rest : List String} {file : String} {settings : Settings}
  {verbose : Bool}

theorem granted (h : Legible rest) (first : Wish)
    (hread : (f.grant first >>= fun f' => f'.readOn [] rest) = .ok (.play file settings verbose)) :
    ∃ wishes, Spelt [] rest wishes := by
  obtain ⟨f', -, hrest⟩ := bind_eq_ok_iff.mp hread
  exact h.all hrest

theorem letters (h : Legible arguments) {letters : List Char}
    (hread : f.readOn letters arguments = .ok (.play file settings verbose)) :
    ∃ wishes, Spelt letters arguments wishes := by
  induction letters generalizing f with
  | nil => exact h.all hread
  | cons letter letters ih =>
    by_cases hv : letter = 'v'
    · subst hv
      rw [readOn_letterVerbose, bind_eq_ok_iff] at hread
      obtain ⟨f', -, hrest⟩ := hread
      obtain ⟨wishes, hwishes⟩ := ih hrest
      exact ⟨_, .letterVerbose hwishes⟩
    by_cases hs : letter = 's'
    · subst hs
      by_cases hnil : letters = []
      · subst hnil
        obtain ⟨value, rest, wishes, rfl, hvalue, hwishes⟩ := h.pending hread
        exact ⟨_, .letterApart hvalue hwishes⟩
      by_cases hequals : letters.head? = some '='
      · obtain ⟨value, rfl⟩ := List.head?_eq_some_iff.mp hequals
        obtain ⟨wishes, hwishes⟩ := h.granted _ ((readOn_letterStart f rfl _).symm.trans hread)
        exact ⟨_, .letterEquals value hwishes⟩
      · have hvalue := attached?_of_ne hnil hequals
        obtain ⟨wishes, hwishes⟩ := h.granted _ ((readOn_letterStart f hvalue _).symm.trans hread)
        exact ⟨_, .letterJoined hnil hequals hwishes⟩
    · -- any other letter asks for something else, or for nothing
      unfold Findings.readOn addLetters at hread
      split at hread
      · next heq => cases heq
      · next heq => exact absurd (List.cons_eq_cons.mp heq).1 hv
      · cases hread
      · cases hread
      · next heq => exact absurd (List.cons_eq_cons.mp heq).1 hs
      · cases hread

theorem option (h : Legible rest) {o : ValueOption} {value : Option String}
    (hread : f.readOn [] ((Argument.long o.name value).text :: rest)
      = .ok (.play file settings verbose)) :
    ∃ wishes, Spelt [] ((Argument.long o.name value).text :: rest) wishes := by
  cases value with
  | some value =>
    obtain ⟨wishes, hwishes⟩ := h.granted _ ((readOn_joined f o value rest).symm.trans hread)
    exact ⟨_, .joined o value hwishes⟩
  | none =>
    obtain ⟨value, rest', wishes, rfl, hvalue, hwishes⟩ :=
      h.pending ((readOn_name f o rest).symm.trans hread)
    exact ⟨_, .apart o hvalue hwishes⟩

/-- Of the other names only one leads on to a walk, and only without a value. -/
theorem eq_verbose_of_readOn {name : String} {value : Option String}
    (hproper : (Argument.long name value).Proper) (hstart : name ≠ "start")
    (hroot : name ≠ "include-root")
    (hread : f.readOn [] ((Argument.long name value).text :: rest)
      = .ok (.play file settings verbose)) : name = "verbose" ∧ value = none := by
  change f.addAll none _ = _ at hread
  unfold addAll at hread
  rw [Argument.ofText_text hproper] at hread
  dsimp only at hread
  rw [if_neg hstart, if_neg hroot] at hread
  by_cases hname : name = "verbose" ∨ name = "help" ∨ name = "version"
  · rw [if_pos hname] at hread
    cases value with
    | some v => cases hread
    | none =>
      rcases hname with rfl | rfl | rfl
      · exact ⟨rfl, rfl⟩
      · cases hread
      · cases hread
  · rw [if_neg hname] at hread
    cases hread

theorem cons (h : Legible rest) (s : String) : Legible (s :: rest) where
  all := by
    intro f file settings verbose hread
    obtain ⟨a, hproper, rfl⟩ := Argument.exists_text s
    cases a with
    | separator => exact ⟨_, .files rest⟩
    | plain path =>
      obtain ⟨wishes, hwishes⟩ := h.granted _ ((readOn_file f hproper rest).symm.trans hread)
      exact ⟨_, .file hproper hwishes⟩
    | short letters =>
      obtain ⟨hne, hdash⟩ := hproper
      obtain ⟨wishes, hwishes⟩ := h.letters ((readOn_letters f hne hdash rest).symm.trans hread)
      exact ⟨_, .letters hne hwishes⟩
    | long name value =>
      by_cases hstart : name = "start"
      · subst hstart
        exact h.option (o := .start) hread
      by_cases hroot : name = "include-root"
      · subst hroot
        exact h.option (o := .root) hread
      obtain ⟨rfl, rfl⟩ := eq_verbose_of_readOn hproper hstart hroot hread
      obtain ⟨wishes, hwishes⟩ := h.granted .verbose hread
      exact ⟨_, .verbose hwishes⟩
  pending := by
    intro f o file settings verbose hread
    obtain ⟨a, hproper, rfl⟩ := Argument.exists_text s
    unfold addAll at hread
    rw [Argument.ofText_text hproper] at hread
    cases a with
    | plain value =>
      obtain ⟨wishes, hwishes⟩ := h.granted (.option o value) hread
      exact ⟨value, rest, wishes, rfl, hproper, hwishes⟩
    | _ => cases hread

end Legible

theorem legible (arguments : List String) : Legible arguments := by
  induction arguments with
  | nil => exact ⟨fun _ => ⟨[], .done⟩, nofun⟩
  | cons s rest ih => exact ih.cons s

/-- **Arguments are taken to ask for a walk exactly if they do.** -/
theorem ofArguments_eq_play_iff {arguments : List String} {file : String} {settings : Settings}
    {verbose : Bool} :
    Request.ofArguments arguments = .ok (.play file settings verbose) ↔
      Asks arguments file settings verbose := by
  show ({} : Findings).readOn [] arguments = _ ↔ _
  constructor
  · intro h
    obtain ⟨wishes, hspelt⟩ := (legible arguments).all h
    exact ⟨wishes, hspelt, grant_request_iff.mp ((hspelt.readOn {}).symm.trans h)⟩
  · rintro ⟨wishes, hspelt, hwished⟩
    exact (hspelt.readOn {}).trans (grant_request_iff.mpr hwished)

end DialogueTree
