/-!
# Bytes and text

Files, input and output are bytes. Text has one encoding, and not every byte
string is the encoding of a text.
-/

namespace DialogueTree

/-- A byte string. -/
abbrev Bytes := List UInt8

namespace Text

/-- The UTF-8 encoding of a text. -/
def encode (s : String) : Bytes := s.toByteArray.data.toList

/-- The text that a byte string encodes, if it is well-formed UTF-8. -/
def decode? (bs : Bytes) : Option String := String.fromUTF8? ⟨bs.toArray⟩

theorem decode?_encode (s : String) : decode? (encode s) = some s := by
  have h : (⟨(encode s).toArray⟩ : ByteArray) = s.toByteArray := by simp [encode]
  unfold decode?
  rw [h, String.fromUTF8?, dif_pos s.isValidUTF8, String.fromUTF8]

/-- Only encodings are read: there is no second spelling of a text. -/
theorem eq_encode_of_decode? {bs : Bytes} {s : String} (h : decode? bs = some s) :
    bs = encode s := by
  simp only [decode?, String.fromUTF8?] at h
  split at h
  · obtain rfl := Option.some.inj h
    simp [encode, String.fromUTF8]
  · cases h

theorem decode?_eq_some_iff {bs : Bytes} {s : String} :
    decode? bs = some s ↔ bs = encode s :=
  ⟨eq_encode_of_decode?, fun h => h ▸ decode?_encode s⟩

theorem encode_append (s t : String) : encode (s ++ t) = encode s ++ encode t := by
  simp [encode]

end Text

end DialogueTree
