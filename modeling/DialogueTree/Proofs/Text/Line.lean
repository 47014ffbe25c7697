import DialogueTree.Channel.Console

/-!
# Lines of text and lines of bytes

A line feed is one byte, and no other character has that byte in its encoding. A text
without line feeds that is typed with one behind it is therefore cut off right there, and
is read as it was typed, unless it ends in what is trimmed.
-/

namespace DialogueTree

namespace Text

theorem encode_eq_flatMap (s : String) : encode s = s.toList.flatMap String.utf8EncodeChar := by
  have hlist : s.toByteArray = s.toList.utf8Encode := by
    rw [← String.toByteArray_ofList, String.ofList_toList]
  unfold encode
  rw [hlist, List.utf8Encode, List.data_toByteArray]

/-- The byte of the line feed encodes the line feed only. -/
theorem eq_lineFeed_of_mem {c : Char} (h : lineFeed ∈ String.utf8EncodeChar c) : c = '\n' := by
  have hbyte : ∀ n, lineFeed = UInt8.ofNat n → n % 256 = 10 := by
    intro n hn
    rw [← UInt8.toNat_ofNat', ← hn]
    rfl
  -- every byte of a longer encoding is at least 128
  unfold String.utf8EncodeChar at h
  dsimp only at h
  split at h
  · next hshort =>
    have hval : c.val.toNat % 256 = 10 := hbyte _ (List.mem_singleton.mp h)
    apply Char.ext
    apply UInt32.toNat_inj.mp
    show c.val.toNat = 10
    omega
  · split at h
    · simp only [List.mem_cons, List.not_mem_nil, or_false] at h
      rcases h with h | h <;> have := hbyte _ h <;> omega
    · split at h <;> simp only [List.mem_cons, List.not_mem_nil, or_false] at h
      · rcases h with h | h | h <;> have := hbyte _ h <;> omega
      · rcases h with h | h | h | h <;> have := hbyte _ h <;> omega

theorem lineFeed_not_mem_encode {s : String} (h : '\n' ∉ s.toList) : lineFeed ∉ encode s := by
  rw [encode_eq_flatMap, List.mem_flatMap]
  rintro ⟨c, hc, hbyte⟩
  rw [eq_lineFeed_of_mem hbyte] at hc
  exact h hc

/-- The bytes of lines, each with a line feed behind it. -/
def encodeLines (lines : List String) : Bytes := lines.flatMap fun line => encode line ++ [lineFeed]

@[simp] theorem encodeLines_nil : encodeLines [] = [] := rfl

theorem encodeLines_cons (line : String) (lines : List String) :
    encodeLines (line :: lines) = encode line ++ lineFeed :: encodeLines lines := by
  simp [encodeLines]

theorem encodeLines_append (lines more : List String) :
    encodeLines (lines ++ more) = encodeLines lines ++ encodeLines more := List.flatMap_append

theorem encode_lineFeed : encode "\n" = [lineFeed] := by decide

end Text

/-- **Input is cut at the first line feed.** -/
theorem splitLine_append {line : Bytes} (h : lineFeed ∉ line) (rest : Bytes) :
    splitLine (line ++ lineFeed :: rest) = (line ++ [lineFeed], rest) := by
  have hline : ∀ b ∈ line, (b != lineFeed) = true := by
    intro b hb
    rw [bne_iff_ne]
    rintro rfl
    exact h hb
  unfold splitLine
  rw [List.takeWhile_append_of_pos hline, List.dropWhile_append_of_pos hline]
  simp

/-- A line that is read as it is typed: it is one line, and does not end in what is
trimmed. -/
structure Typeable (line : String) : Prop where
  one : '\n' ∉ line.toList
  trimmed : line.toList.getLast? ≠ some '\r'

theorem Typeable.trimLine {line : String} (h : Typeable line) : trimLine (line ++ "\n") = line := by
  have hturned : (line ++ "\n").toList.reverse = '\n' :: line.toList.reverse := by simp
  have hkept : line.toList.reverse.dropWhile (fun c => c == '\r' || c == '\n')
      = line.toList.reverse := by
    cases hreverse : line.toList.reverse with
    | nil => rfl
    | cons c cs =>
      have hmem : c ∈ line.toList := by
        rw [← List.mem_reverse, hreverse]
        exact List.mem_cons_self
      have hlast : line.toList.getLast? = some c := by
        rw [List.getLast?_eq_head?_reverse, hreverse]
        rfl
      have hfeed : c ≠ '\n' := fun heq => h.one (heq ▸ hmem)
      have hreturn : c ≠ '\r' := fun heq => h.trimmed (heq ▸ hlast)
      rw [List.dropWhile_cons_of_neg (by simp [hfeed, hreturn])]
  unfold DialogueTree.trimLine
  rw [hturned, List.dropWhile_cons_of_pos (by rfl), hkept, List.reverse_reverse,
    String.ofList_toList]

/-- **A line is read as it was typed.** -/
theorem Typeable.lineInput {line : String} (h : Typeable line) :
    lineInput (Text.encode line ++ [lineFeed]) = line := by
  have hencode : Text.encode line ++ [lineFeed] = Text.encode (line ++ "\n") := by
    rw [Text.encode_append, Text.encode_lineFeed]
  have hsome : (Text.encode line ++ [lineFeed]).isEmpty = false := by simp
  unfold DialogueTree.lineInput
  rw [hsome, hencode, Text.decode?_encode]
  exact h.trimLine

end DialogueTree
