import Mathlib
import Outreach.Text.Bytes

/-! UTF-8: the bytes of a text are read as the text. -/
namespace Outreach.Text

section Reading
variable {standIn : Char} {b : UInt8} {s : Started}

theorem lossyFrom_ascii (h : b.toNat < 0x80) (r : List UInt8) :
    lossyFrom standIn none (b :: r) = Char.ofNat b.toNat :: lossyFrom standIn none r := by
  rw [lossyFrom, lossyStart, if_pos h]
  rfl

theorem lossyFrom_started (h : started? b.toNat = some s) (r : List UInt8) :
    lossyFrom standIn none (b :: r) = lossyFrom standIn (some s) r := by
  have hb : ¬ b.toNat < 0x80 := by
    unfold started? at h
    grind
  rw [lossyFrom, lossyStart, if_neg hb, h]
  rfl

theorem lossyFrom_more (hlow : s.low ≤ b.toNat) (hhigh : b.toNat ≤ s.high) (h : 1 < s.missing) (r : List UInt8) :
    lossyFrom standIn (some s) (b :: r) =
      lossyFrom standIn (some ⟨64 * s.value + (b.toNat - 0x80), s.missing - 1, 0x80, 0xBF⟩) r := by
  rw [lossyFrom, if_pos (by simp [hlow, hhigh]), if_neg (not_le.mpr h)]

theorem lossyFrom_last (hlow : s.low ≤ b.toNat) (hhigh : b.toNat ≤ s.high) (h : s.missing ≤ 1) (r : List UInt8) :
    lossyFrom standIn (some s) (b :: r) =
      Char.ofNat (64 * s.value + (b.toNat - 0x80)) :: lossyFrom standIn none r := by
  rw [lossyFrom, if_pos (by simp [hlow, hhigh]), if_pos h]

end Reading

section Starting
variable {n : Nat}

theorem started?_two (h₁ : 0xC2 ≤ n) (h₂ : n ≤ 0xDF) : started? n = some ⟨n - 0xC0, 1, 0x80, 0xBF⟩ := by
  simp [started?, h₁, h₂]

theorem started?_three (h₁ : 0xE0 ≤ n) (h₂ : n ≤ 0xEF) : started? n =
    some ⟨n - 0xE0, 2, if n = 0xE0 then 0xA0 else 0x80, if n = 0xED then 0x9F else 0xBF⟩ := by
  simp [started?, h₁, h₂, show ¬ n ≤ 0xDF by omega]

theorem started?_four (h₁ : 0xF0 ≤ n) (h₂ : n ≤ 0xF4) : started? n =
    some ⟨n - 0xF0, 3, if n = 0xF0 then 0x90 else 0x80, if n = 0xF4 then 0x8F else 0xBF⟩ := by
  simp [started?, h₁, h₂, show ¬ n ≤ 0xDF by omega, show ¬ n ≤ 0xEF by omega]

end Starting

/-- The bytes of a character are read as the character. -/
theorem lossyFrom_utf8EncodeChar (standIn c : Char) (r : List UInt8) :
    lossyFrom standIn none (String.utf8EncodeChar c ++ r) = c :: lossyFrom standIn none r := by
  have hvalid : c.toNat < 0xD800 ∨ 0xDFFF < c.toNat ∧ c.toNat < 0x110000 := c.valid
  have hbyte {n : Nat} (h : n < 256) : (UInt8.ofNat n).toNat = n := by rw [UInt8.toNat_ofNat', Nat.mod_eq_of_lt h]
  have hc {n : Nat} (h : n = c.toNat) : Char.ofNat n = c := h ▸ Char.ofNat_toNat c
  have hcode : c.val.toNat = c.toNat := rfl
  rw [String.utf8EncodeChar, hcode]
  generalize c.toNat = v at *
  -- One to four bytes, by the size of the code. The bounds of a second byte keep out what fewer bytes spell, surrogates
  -- and what is beyond the last character.
  split_ifs with h₁ h₂ h₃ <;> simp only [List.cons_append, List.nil_append]
  · have hfirst := hbyte (n := v) (by omega)
    rw [lossyFrom_ascii (by omega), hc hfirst]
  · have hfirst := hbyte (n := v / 64 % 32 + 192) (by omega)
    have hlast := hbyte (n := v % 64 + 128) (by omega)
    rw [lossyFrom_started (started?_two (by omega) (by omega)), lossyFrom_last, hc] <;> dsimp only <;> omega
  · have hfirst := hbyte (n := v / 4096 % 16 + 224) (by omega)
    have hsecond := hbyte (n := v / 64 % 64 + 128) (by omega)
    have hlast := hbyte (n := v % 64 + 128) (by omega)
    rw [lossyFrom_started (started?_three (by omega) (by omega)), lossyFrom_more, lossyFrom_last, hc] <;> dsimp only <;>
      (try split_ifs) <;> omega
  · have hfirst := hbyte (n := v / 262144 % 8 + 240) (by omega)
    have hsecond := hbyte (n := v / 4096 % 64 + 128) (by omega)
    have hthird := hbyte (n := v / 64 % 64 + 128) (by omega)
    have hlast := hbyte (n := v % 64 + 128) (by omega)
    rw [lossyFrom_started (started?_four (by omega) (by omega)), lossyFrom_more, lossyFrom_more, lossyFrom_last, hc] <;>
      dsimp only <;> (try split_ifs) <;> omega

theorem lossyFrom_flatMap (standIn : Char) (cs : List Char) :
    lossyFrom standIn none (cs.flatMap String.utf8EncodeChar) = cs := by
  induction cs with
  | nil => rfl
  | cons c cs ih => rw [List.flatMap_cons, lossyFrom_utf8EncodeChar, ih]

@[simp]
theorem chars_eq (s : String) : chars s = s.toList := by
  obtain ⟨cs, rfl⟩ : ∃ cs, s = String.ofList cs := ⟨s.toList, String.ofList_toList.symm⟩
  have hbytes : (String.ofList cs).toByteArray.data.toList = cs.flatMap String.utf8EncodeChar := by
    rw [String.toByteArray_ofList, List.utf8Encode, List.data_toByteArray]
  rw [chars, hbytes, lossyFrom_flatMap, String.toList_ofList]

theorem toList_bytes (bs : ByteArray) : bs.toList = bs.data.toList := by
  have hloop (i : Nat) (acc : List UInt8) : ByteArray.toList.loop bs i acc = acc.reverse ++ bs.data.toList.drop i := by
    fun_induction ByteArray.toList.loop bs i acc with
    | case1 i acc h ih =>
      have hi : i < bs.data.toList.length := h
      have hget : bs.get! i = bs.data.toList[i] := getElem!_pos bs.data i h
      rw [ih, hget, List.reverse_cons, List.append_assoc, List.drop_eq_getElem_cons hi, List.singleton_append]
    | case2 i acc h => rw [List.drop_of_length_le (not_lt.mp h), List.append_nil]
  exact hloop 0 []

theorem bytes_injective {a b : String} : bytes a = bytes b ↔ a = b := by
  rw [bytes, bytes, toList_bytes, toList_bytes, Array.toList_inj]
  exact ByteArray.ext_iff.symm.trans String.toByteArray_inj

theorem ofBytes?_eq_some {bs : List UInt8} {s : String} : ofBytes? bs = some s ↔ bytes s = bs := by
  rw [bytes, toList_bytes, ofBytes?, String.fromUTF8?]
  constructor
  · intro h
    split at h
    · cases h
      rfl
    · cases h
  · rintro rfl
    rw [Array.toArray_toList]
    exact dif_pos s.isValidUTF8

end Outreach.Text
