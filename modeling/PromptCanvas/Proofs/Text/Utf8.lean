import PromptCanvas.Text.Utf8

/-! # Reading UTF-8

Some bytes are read as a text exactly if they are what the text is written as
(`decodeUtf8?_eq_some_iff`), so the bytes that no text is written as are not read. -/

set_option autoImplicit false

namespace PromptCanvas.Text

section Strict

theorem toByteArray_encodeUtf8 (s : String) : ⟨(encodeUtf8 s).toArray⟩ = s.toUTF8 := by
  rw [encodeUtf8, Array.toArray_toList]

theorem decodeUtf8?_encodeUtf8 (s : String) : decodeUtf8? (encodeUtf8 s) = some s := by
  rw [decodeUtf8?, toByteArray_encodeUtf8, String.fromUTF8?, String.toUTF8_eq_toByteArray,
    dif_pos s.isValidUTF8]
  rfl

theorem encodeUtf8_of_decodeUtf8? {bytes : List UInt8} {s : String}
    (read : decodeUtf8? bytes = some s) : encodeUtf8 s = bytes := by
  rw [decodeUtf8?, String.fromUTF8?] at read
  split at read
  · cases read
    rfl
  · cases read

theorem decodeUtf8?_eq_some_iff {bytes : List UInt8} {s : String} :
    decodeUtf8? bytes = some s ↔ bytes = encodeUtf8 s := by
  constructor
  · exact fun read => (encodeUtf8_of_decodeUtf8? read).symm
  · rintro rfl
    exact decodeUtf8?_encodeUtf8 s

theorem decodeUtf8?_eq_none_iff {bytes : List UInt8} :
    decodeUtf8? bytes = none ↔ ∀ s, bytes ≠ encodeUtf8 s := by
  simp only [Option.eq_none_iff_forall_ne_some, ne_eq, decodeUtf8?_eq_some_iff]

end Strict

section Bytes

end Bytes

end PromptCanvas.Text
