/-!
# Text from bytes

Text is stored as UTF-8.
-/

namespace Abacus.Text

/-- The text that some bytes stand for, if they are valid UTF-8. -/
def ofBytes? (bytes : List UInt8) : Option String := String.fromUTF8? ⟨bytes.toArray⟩

/-- The bytes of a text. -/
def toBytes (text : String) : List UInt8 := text.toByteArray.data.toList

/-- Bytes stand for the text that has them. -/
theorem ofBytes?_eq_some_iff {bytes : List UInt8} {text : String} :
    ofBytes? bytes = some text ↔ bytes = toBytes text := by
  unfold ofBytes? String.fromUTF8?
  constructor
  · intro h
    split at h
    · rw [← Option.some.inj h]
      rfl
    · exact absurd h (by simp)
  · rintro rfl
    exact dif_pos text.isValidUTF8

theorem toBytes_append (a b : String) : toBytes (a ++ b) = toBytes a ++ toBytes b := by
  unfold toBytes
  rw [String.toByteArray_append, ByteArray.data_append, Array.toList_append]

theorem toBytes_newline : toBytes "\n" = [10] := by decide +kernel

theorem toBytes_ofList (text : List Char) :
    toBytes (String.ofList text) = text.flatMap String.utf8EncodeChar := by
  unfold toBytes
  rw [String.toByteArray_ofList, List.utf8Encode, List.data_toByteArray]

/-- Only a newline has the byte of a newline: all bytes of the longer forms are above 127. -/
theorem eq_newline_of_mem_utf8EncodeChar {c : Char} (h : 10 ∈ String.utf8EncodeChar c) :
    c = '\n' := by
  have hbyte : ∀ n, (10 : UInt8) = UInt8.ofNat n → n % 256 = 10 := by
    intro n hn
    have hnat := congrArg UInt8.toNat hn
    rw [UInt8.toNat_ofNat'] at hnat
    exact hnat.symm
  unfold String.utf8EncodeChar at h
  simp only at h
  split at h
  · have hnat := hbyte _ (List.mem_singleton.mp h)
    refine Char.ext (UInt32.toNat_inj.mp ?_)
    show c.val.toNat = 10
    omega
  split at h
  · simp only [List.mem_cons, List.not_mem_nil, or_false] at h
    rcases h with h | h <;> exact absurd (hbyte _ h) (by omega)
  split at h
  · simp only [List.mem_cons, List.not_mem_nil, or_false] at h
    rcases h with h | h | h <;> exact absurd (hbyte _ h) (by omega)
  · simp only [List.mem_cons, List.not_mem_nil, or_false] at h
    rcases h with h | h | h | h <;> exact absurd (hbyte _ h) (by omega)

/-- A text without newlines has no byte of one. -/
theorem ne_newline_of_mem_toBytes {text : String} (h : '\n' ∉ text.toList) {byte : UInt8}
    (hbyte : byte ∈ toBytes text) : byte ≠ 10 := by
  rintro rfl
  rw [← String.ofList_toList (s := text), toBytes_ofList] at hbyte
  rcases List.mem_flatMap.mp hbyte with ⟨c, hc, hmem⟩
  rw [eq_newline_of_mem_utf8EncodeChar hmem] at hc
  exact h hc

end Abacus.Text
