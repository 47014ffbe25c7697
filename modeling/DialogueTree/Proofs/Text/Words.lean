import DialogueTree.Text.Blank

/-!
# Words and the blanks around them

Splitting a line at blanks throws the blanks away. What the words say about the line is
therefore a matter of the other direction: a line has some words exactly if it is these words
with blanks around them and between them (`spaced_iff`). There is at least one blank between
two words; before the first and behind the last there may be none.

So two lines have the same words exactly if they differ in their blanks only, and not in where
there are any between two words.
-/

namespace DialogueTree.Text

/-- The code points of the characters with the property White_Space. -/
def whiteSpace : List Nat := [
  0x09, 0x0A, 0x0B, 0x0C, 0x0D, 0x20, 0x85, 0xA0, 0x1680,
  0x2000, 0x2001, 0x2002, 0x2003, 0x2004, 0x2005, 0x2006, 0x2007, 0x2008, 0x2009, 0x200A,
  0x2028, 0x2029, 0x202F, 0x205F, 0x3000]

/-- **A blank is a character with the property White_Space.** -/
theorem isBlank_iff {c : Char} : isBlank c = true ↔ c.toNat ∈ whiteSpace := by
  have hcontrols : 0x09 ≤ c.toNat ∧ c.toNat ≤ 0x0D ↔
      c.toNat = 0x09 ∨ c.toNat = 0x0A ∨ c.toNat = 0x0B ∨ c.toNat = 0x0C ∨ c.toNat = 0x0D := by
    omega
  have hspaces : 0x2000 ≤ c.toNat ∧ c.toNat ≤ 0x200A ↔
      c.toNat = 0x2000 ∨ c.toNat = 0x2001 ∨ c.toNat = 0x2002 ∨ c.toNat = 0x2003
        ∨ c.toNat = 0x2004 ∨ c.toNat = 0x2005 ∨ c.toNat = 0x2006 ∨ c.toNat = 0x2007
        ∨ c.toNat = 0x2008 ∨ c.toNat = 0x2009 ∨ c.toNat = 0x200A := by
    omega
  simp only [isBlank, whiteSpace, Bool.or_eq_true, Bool.and_eq_true, decide_eq_true_eq,
    beq_iff_eq, List.mem_cons, List.not_mem_nil, or_false, hcontrols, hspaces, or_assoc]

/-- A text with nothing but blanks. -/
def Blank (s : String) : Prop := ∀ c ∈ s.toList, isBlank c = true

/-- A text that is one word. -/
def IsWord (s : String) : Prop := s ≠ "" ∧ ∀ c ∈ s.toList, isBlank c = false

instance (s : String) : Decidable (IsWord s) :=
  decidable_of_iff (s ≠ "" ∧ s.toList.all (!isBlank ·) = true) (by simp [IsWord])

/-! ## The words of a text -/

theorem not_isBlank_of_mem_splitOnP {cs piece : List Char} (h : piece ∈ cs.splitOnP isBlank) :
    ∀ c ∈ piece, isBlank c = false := by
  induction cs generalizing piece with
  | nil =>
    rw [List.splitOnP_nil, List.mem_singleton] at h
    subst h
    nofun
  | cons first rest ih =>
    rw [List.splitOnP_cons_eq_if_modifyHead] at h
    by_cases hblank : isBlank first = true
    · rw [if_pos hblank] at h
      rcases List.mem_cons.mp h with rfl | hrest
      · nofun
      · exact ih hrest
    · -- the first piece of the rest gets longer by a character that is not blank
      obtain ⟨head, pieces, hsplit⟩ :=
        List.exists_cons_of_ne_nil (List.splitOnP_ne_nil isBlank rest)
      rw [if_neg hblank, hsplit, List.modifyHead_cons] at h
      rw [hsplit] at ih
      rcases List.mem_cons.mp h with rfl | hrest
      · intro c hc
        rcases List.mem_cons.mp hc with rfl | hc
        · simpa using hblank
        · exact ih List.mem_cons_self c hc
      · exact ih (List.mem_cons_of_mem _ hrest)

/-- A word is not empty and has no blank in it. -/
theorem mem_words {cs word : List Char} (h : word ∈ words cs) :
    word ≠ [] ∧ ∀ c ∈ word, isBlank c = false := by
  obtain ⟨hpiece, hword⟩ := List.mem_filter.mp h
  exact ⟨by simpa using hword, not_isBlank_of_mem_splitOnP hpiece⟩

/-- **Words end at a blank.** All other equations for words follow from this one. -/
theorem words_append_blank {c : Char} (hc : isBlank c = true) (xs ys : List Char) :
    words (xs ++ c :: ys) = words xs ++ words ys := by
  unfold words
  rw [List.splitOnP_append_cons xs ys hc, List.filter_append]

/-- Blanks before a text make no words. -/
theorem words_blanks_append {gap : List Char} (hgap : ∀ c ∈ gap, isBlank c = true)
    (cs : List Char) : words (gap ++ cs) = words cs := by
  induction gap with
  | nil => rfl
  | cons c gap ih =>
    obtain ⟨hc, hgap⟩ := List.forall_mem_cons.mp hgap
    rw [List.cons_append, ← ih hgap]
    exact words_append_blank hc [] (gap ++ cs)

theorem words_of_word {word : List Char} (hne : word ≠ [])
    (hword : ∀ c ∈ word, isBlank c = false) : words word = [word] := by
  unfold words
  rw [List.splitOnP_eq_singleton hword]
  simp [hne]

/-- A word goes on until there is a blank, or nothing. -/
theorem words_word_append {word rest : List Char} (hne : word ≠ [])
    (hword : ∀ c ∈ word, isBlank c = false) (hrest : ∀ c ∈ rest.head?, isBlank c = true) :
    words (word ++ rest) = word :: words rest := by
  cases rest with
  | nil =>
    rw [List.append_nil, words_of_word hne hword]
    rfl
  | cons c rest =>
    have hc : isBlank c = true := hrest c rfl
    have hbehind : words (c :: rest) = words rest := words_append_blank hc [] rest
    rw [words_append_blank hc, words_of_word hne hword, hbehind]
    rfl

/-! ## The texts with some words -/

/-- A text that consists of words, with blanks around and between them. Behind a word there is
a blank unless the text is over. -/
inductive Spaced : List (List Char) → List Char → Prop where
  | blanks {gap : List Char} : (∀ c ∈ gap, isBlank c = true) → Spaced [] gap
  | word {gap word rest : List Char} {words : List (List Char)} :
      (∀ c ∈ gap, isBlank c = true) → word ≠ [] → (∀ c ∈ word, isBlank c = false) →
      (∀ c ∈ rest.head?, isBlank c = true) → Spaced words rest →
      Spaced (word :: words) (gap ++ (word ++ rest))

theorem Spaced.words_eq {ws : List (List Char)} {cs : List Char} (h : Spaced ws cs) :
    words cs = ws := by
  induction h with
  | @blanks gap hgap =>
    have hwords := words_blanks_append hgap []
    rwa [List.append_nil] at hwords
  | word hgap hne hword hrest _ ih =>
    rw [words_blanks_append hgap, words_word_append hne hword hrest, ih]

/-- A blank before a text is one more blank before its first word. -/
theorem Spaced.cons_blank {c : Char} {cs : List Char} {ws : List (List Char)}
    (h : Spaced ws cs) (hc : isBlank c = true) : Spaced ws (c :: cs) := by
  cases h with
  | blanks hgap => exact .blanks (List.forall_mem_cons.mpr ⟨hc, hgap⟩)
  | word hgap hne hword hrest hbehind =>
    exact .word (List.forall_mem_cons.mpr ⟨hc, hgap⟩) hne hword hrest hbehind

/-- A character that is not blank makes the first word longer, or is a word of its own. -/
theorem Spaced.cons_letter {c : Char} {cs : List Char} {ws : List (List Char)}
    (h : Spaced ws cs) (hc : isBlank c = false) : ∃ ws', Spaced ws' (c :: cs) := by
  have halone : (∀ d ∈ cs.head?, isBlank d = true) → Spaced ([c] :: ws) (c :: cs) := by
    intro hcs
    have hletter : ∀ d ∈ [c], isBlank d = false := fun d hd => by rwa [List.mem_singleton.mp hd]
    exact @Spaced.word [] [c] cs ws nofun (List.cons_ne_nil c []) hletter hcs h
  cases h with
  | blanks hgap => exact ⟨_, halone fun d hd => hgap d (List.mem_of_mem_head? hd)⟩
  | @word gap word rest words hgap hne hword hrest hbehind =>
    cases gap with
    | nil =>
      have hlonger : ∀ d ∈ c :: word, isBlank d = false := List.forall_mem_cons.mpr ⟨hc, hword⟩
      exact ⟨_, @Spaced.word [] (c :: word) rest words nofun (List.cons_ne_nil c word) hlonger
        hrest hbehind⟩
    | cons d gap =>
      refine ⟨_, halone ?_⟩
      intro e he
      cases he
      exact hgap _ List.mem_cons_self

/-- Every text consists of some words. -/
theorem exists_spaced (cs : List Char) : ∃ ws, Spaced ws cs := by
  induction cs with
  | nil => exact ⟨[], .blanks nofun⟩
  | cons c cs ih =>
    obtain ⟨ws, hspaced⟩ := ih
    cases hc : isBlank c with
    | true => exact ⟨ws, hspaced.cons_blank hc⟩
    | false => exact hspaced.cons_letter hc

/-- **A text has the words that it consists of.** -/
theorem spaced_iff {ws : List (List Char)} {cs : List Char} : Spaced ws cs ↔ words cs = ws := by
  refine ⟨Spaced.words_eq, fun h => ?_⟩
  obtain ⟨ws', hspaced⟩ := exists_spaced cs
  rwa [← h, hspaced.words_eq]

/-! ## Lines with few words -/

/-- The words of a line, as texts. -/
def tokens (s : String) : List String := (words s.toList).map String.ofList

theorem tokens_eq_iff {s : String} {ts : List String} :
    tokens s = ts ↔ Spaced (ts.map String.toList) s.toList := by
  rw [spaced_iff]
  unfold tokens
  refine ⟨fun h => ?_, fun h => ?_⟩
  · simp [← h]
  · simp [h]

/-- Two lines consist of the same words. There may be more or fewer blanks around and between
the words, or other blanks. -/
def Respaced (s other : String) : Prop := ∃ ws, Spaced ws s.toList ∧ Spaced ws other.toList

theorem Respaced.tokens_eq {s other : String} (h : Respaced s other) : tokens s = tokens other := by
  obtain ⟨ws, hs, hother⟩ := h
  unfold tokens
  rw [spaced_iff.mp hs, spaced_iff.mp hother]

theorem isWord_of_mem_tokens {s token : String} (h : token ∈ tokens s) : IsWord token := by
  obtain ⟨word, hword, rfl⟩ := List.mem_map.mp h
  obtain ⟨hne, hletters⟩ := mem_words hword
  exact ⟨by simpa using hne, by simpa using hletters⟩

theorem tokens_eq_nil_iff {s : String} : tokens s = [] ↔ Blank s := by
  rw [tokens_eq_iff]
  refine ⟨fun h => ?_, Spaced.blanks⟩
  cases h with
  | blanks hgap => exact hgap

/-- A line whose one word is `w` is `w` with blanks around it. -/
theorem tokens_eq_singleton_iff {w s : String} (hw : IsWord w) :
    tokens s = [w] ↔ ∃ before after, Blank before ∧ Blank after ∧ s = before ++ w ++ after := by
  rw [tokens_eq_iff]
  constructor
  · intro h
    generalize hs : s.toList = cs at h
    cases h with
    | @word gap _ rest _ hgap _ _ _ hrest =>
      cases hrest with
      | blanks hrest =>
        refine ⟨.ofList gap, .ofList rest, by simpa [Blank] using hgap,
          by simpa [Blank] using hrest, String.ext ?_⟩
        simp [hs]
  · rintro ⟨before, after, hbefore, hafter, rfl⟩
    rw [String.toList_append, String.toList_append, List.append_assoc]
    exact .word hbefore (by simpa using hw.1) hw.2
      (fun c hc => hafter c (List.mem_of_mem_head? hc)) (.blanks hafter)

/-- A line whose two words are `v` and `w` is these two with blanks around them, and with at
least one blank between them. -/
theorem tokens_eq_pair_iff {v w s : String} (hv : IsWord v) (hw : IsWord w) :
    tokens s = [v, w] ↔
      ∃ before between after, Blank before ∧ Blank between ∧ between ≠ "" ∧ Blank after
        ∧ s = before ++ v ++ between ++ w ++ after := by
  rw [tokens_eq_iff]
  constructor
  · intro h
    generalize hs : s.toList = cs at h
    cases h with
    | @word gap _ behind _ hgap _ _ hhead hbehind =>
      cases hbehind with
      | @word gap' _ rest _ hgap' hne hword _ hrest =>
        cases hrest with
        | blanks hrest =>
          refine ⟨.ofList gap, .ofList gap', .ofList rest, by simpa [Blank] using hgap,
            by simpa [Blank] using hgap', ?_, by simpa [Blank] using hrest, String.ext ?_⟩
          · -- without a blank the second word would begin with one
            intro hempty
            obtain rfl : gap' = [] := by simpa using hempty
            obtain ⟨c, tail, hcons⟩ := List.exists_cons_of_ne_nil hne
            have hblank : isBlank c = true := hhead c (by simp [hcons])
            rw [hword c (by simp [hcons])] at hblank
            cases hblank
          · simp [hs]
  · rintro ⟨before, between, after, hbefore, hbetween, hne, hafter, rfl⟩
    obtain ⟨c, tail, hcons⟩ : ∃ c tail, between.toList = c :: tail :=
      List.exists_cons_of_ne_nil (by simpa using hne)
    simp only [String.toList_append, List.append_assoc]
    refine .word hbefore (by simpa using hv.1) hv.2 ?_ (.word hbetween (by simpa using hw.1) hw.2
      (fun c hc => hafter c (List.mem_of_mem_head? hc)) (.blanks hafter))
    intro d hd
    obtain rfl : c = d := by simpa [hcons] using hd
    exact hbetween c (by simp [hcons])

end DialogueTree.Text
