import LevinNet.Bytes

/-
UTF-8 text as byte strings. `decode?` reads exactly the byte strings that `encode` writes.
-/
namespace LevinNet.Utf8

/-- The bytes of a text. -/
def encode (s : String) : Bytes := s.toByteArray.data.toList

/-- The text that a byte string writes, if it is well-formed. -/
def decode? (bs : Bytes) : Option String := String.fromUTF8? ⟨bs.toArray⟩

theorem decode?_encode (s : String) : decode? (encode s) = some s := by
  have h : (⟨(encode s).toArray⟩ : ByteArray) = s.toByteArray := by simp [encode]
  unfold decode?
  rw [h, String.fromUTF8?, dif_pos s.isValidUTF8]
  rfl

theorem encode_of_decode? {bs : Bytes} {s : String} (h : decode? bs = some s) : encode s = bs := by
  unfold decode? String.fromUTF8? at h
  split at h
  · cases h
    simp [encode, String.fromUTF8]
  · cases h

end LevinNet.Utf8
