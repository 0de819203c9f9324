import Switchboard.Proofs.Bytes
import Switchboard.Text.Utf8

/-!
# Texts as bytes

A text that was written as bytes is read back from them, and a line feed among the bytes is a line
feed in the text: no other character has that byte in it.
-/

namespace Switchboard.Utf8

theorem fromUTF8?_toUTF8 (text : String) : String.fromUTF8? text.toUTF8 = some text :=
  dif_pos text.isValidUTF8

/-- Text that was written as bytes is read back without a replacement. -/
theorem lossy_toUTF8 (text : String) : lossy text.toUTF8 = text := by
  simp only [lossy, fromUTF8?_toUTF8]

theorem decode_toUTF8 (text : String) : decode text.toUTF8 = .ok text := by
  simp only [decode, fromUTF8?_toUTF8]

theorem toUTF8_of_decode {bytes : ByteArray} {text : String} (h : decode bytes = .ok text) :
    text.toUTF8 = bytes := by
  unfold decode at h
  split at h
  · rename_i found hf
    cases h
    unfold String.fromUTF8? at hf
    split at hf
    · cases hf; rfl
    · cases hf
  · cases h

/-! ## The bytes of characters -/

theorem bytesOf_toUTF8 (text : String) :
    bytesOf text.toUTF8 = text.toList.flatMap String.utf8EncodeChar := by
  have h : text.toUTF8 = text.toList.utf8Encode := by
    rw [← String.toByteArray_ofList, String.ofList_toList]
    rfl
  rw [h, List.utf8Encode, bytesOf, List.data_toByteArray]

theorem lineFeed_ne_high {n : Nat} (hlow : 0x80 ≤ n) (hhigh : n < 0x100) :
    (0x0A : UInt8) ≠ UInt8.ofNat n := by
  intro h
  have hb := congrArg UInt8.toNat h
  simp only [UInt8.toNat_ofNat', UInt8.reduceToNat] at hb
  omega

/-- The bytes of a character beyond ASCII are all beyond ASCII. -/
theorem lineFeed_mem_encode {c : Char} : (0x0A : UInt8) ∈ String.utf8EncodeChar c ↔ c = '\n' := by
  constructor
  · intro h
    have hval : c.val.toNat = 10 := by
      unfold String.utf8EncodeChar at h
      simp only at h
      generalize c.val.toNat = v at h ⊢
      split at h
      · have hb := congrArg UInt8.toNat (List.mem_singleton.1 h)
        simp only [UInt8.toNat_ofNat', UInt8.reduceToNat] at hb
        omega
      · exfalso
        split at h
        · simp only [List.mem_cons, List.not_mem_nil, or_false] at h
          rcases h with h | h <;> exact lineFeed_ne_high (by omega) (by omega) h
        · split at h
          · simp only [List.mem_cons, List.not_mem_nil, or_false] at h
            rcases h with h | h | h <;> exact lineFeed_ne_high (by omega) (by omega) h
          · simp only [List.mem_cons, List.not_mem_nil, or_false] at h
            rcases h with h | h | h | h <;> exact lineFeed_ne_high (by omega) (by omega) h
    exact Char.ext (UInt32.toNat_inj.1 hval)
  · rintro rfl
    decide

theorem lineFeed_mem_toUTF8 {text : String} :
    (0x0A : UInt8) ∈ bytesOf text.toUTF8 ↔ '\n' ∈ text.toList := by
  rw [bytesOf_toUTF8, List.mem_flatMap]
  constructor
  · rintro ⟨c, hc, hb⟩
    rw [lineFeed_mem_encode.1 hb] at hc
    exact hc
  · intro h
    exact ⟨'\n', h, lineFeed_mem_encode.2 rfl⟩

end Switchboard.Utf8
