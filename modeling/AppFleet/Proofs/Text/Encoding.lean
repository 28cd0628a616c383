import AppFleet.Text.Lines
import Mathlib.Tactic.Common

/-! Texts as bytes. The bytes of a text read back as it, and a byte below 0x80 stands for itself alone. -/

namespace AppFleet

theorem byteArray_loop (bytes : ByteArray) (i : Nat) (listed : List UInt8) :
    ByteArray.toList.loop bytes i listed = listed.reverse ++ bytes.data.toList.drop i := by
  fun_induction ByteArray.toList.loop bytes i listed with
  | case1 i listed h ih =>
    have hi : i < bytes.data.toList.length := h
    have hget : bytes.get! i = bytes.data.toList[i] := getElem!_pos bytes.data i h
    rw [ih, List.drop_eq_getElem_cons hi, hget]
    simp
  | case2 i listed h =>
    have hi : bytes.data.toList.length ≤ i := Nat.le_of_not_lt h
    simp [List.drop_eq_nil_of_le hi]

theorem byteArray_toList (bytes : ByteArray) : bytes.toList = bytes.data.toList := byteArray_loop bytes 0 []

namespace Text

theorem toUTF8_toList (s : String) : s.toUTF8.toList = s.toList.flatMap String.utf8EncodeChar := by
  have hbytes : s.toUTF8 = s.toList.utf8Encode := by
    rw [String.toUTF8, ← String.toByteArray_ofList, String.ofList_toList]
  rw [hbytes, byteArray_toList, List.utf8Encode, List.data_toByteArray]

theorem ofUtf8?_toUTF8 (s : String) : ofUtf8? s.toUTF8.toList = some s := by
  have hbytes : (⟨s.toUTF8.toList.toArray⟩ : ByteArray) = s.toByteArray := by
    rw [byteArray_toList]
    rfl
  rw [ofUtf8?, hbytes, String.fromUTF8?, dif_pos s.isValidUTF8]
  rfl

theorem toUTF8_of_ofUtf8? {bytes : List UInt8} {s : String} (h : ofUtf8? bytes = some s) :
    s.toUTF8.toList = bytes := by
  unfold ofUtf8? String.fromUTF8? at h
  split at h
  · cases h
    rw [byteArray_toList]
    rfl
  · cases h

theorem toUTF8_toList_injective : Function.Injective fun text : String => text.toUTF8.toList := by
  intro s t h
  have hread := congrArg ofUtf8? h
  dsimp only at hread
  rwa [ofUtf8?_toUTF8, ofUtf8?_toUTF8, Option.some.injEq] at hread

/-- A byte below 0x80 is the encoding of the character of that number. -/
theorem toNat_of_mem_encode {b : UInt8} (hb : b < 0x80) {c : Char} (h : b ∈ String.utf8EncodeChar c) :
    c.toNat = b.toNat := by
  have hb : b.toNat < 0x80 := hb
  have hhigh {n : Nat} (hn : 0x80 ≤ n % 0x100) : b ≠ UInt8.ofNat n := by
    rintro rfl
    rw [UInt8.toNat_ofNat'] at hb
    omega
  simp only [String.utf8EncodeChar] at h
  split at h
  · rw [List.mem_singleton] at h
    subst h
    rw [UInt8.toNat_ofNat']
    change c.val.toNat = _
    omega
  · exfalso
    split at h
    · simp only [List.mem_cons, List.not_mem_nil, or_false] at h
      rcases h with h | h <;> exact hhigh (by omega) h
    · split at h
      · simp only [List.mem_cons, List.not_mem_nil, or_false] at h
        rcases h with h | h | h <;> exact hhigh (by omega) h
      · simp only [List.mem_cons, List.not_mem_nil, or_false] at h
        rcases h with h | h | h | h <;> exact hhigh (by omega) h

end Text

end AppFleet
