import Mathlib.Data.String.Basic
import Outreach.Text.Basic

/-! Decimal numerals: their digits, what they are read as, and how they sort as text. -/
namespace Outreach.Text

theorem digitsValue_eq (ds : List Char) : digitsValue ds = Nat.ofDigitChars 10 ds 0 :=
  Nat.ofDigitChars_eq_foldl.symm

@[simp]
theorem digitsValue_toDigits (n : Nat) : digitsValue (Nat.toDigits 10 n) = n := by
  rw [digitsValue_eq, Nat.ofDigitChars_ten_toDigits]

theorem digitsValue_append (a b : List Char) :
    digitsValue (a ++ b) = 10 ^ b.length * digitsValue a + digitsValue b := by
  rw [digitsValue_eq, Nat.ofDigitChars_append, Nat.ofDigitChars_eq_ofDigitChars_zero, digitsValue_eq,
    digitsValue_eq]

theorem digitsValue_cons (c : Char) (ds : List Char) :
    digitsValue (c :: ds) = 10 ^ ds.length * (c.toNat - 48) + digitsValue ds := by
  rw [← List.singleton_append, digitsValue_append]
  simp [digitsValue]

@[simp]
theorem digitsValue_zeros (k : Nat) : digitsValue (List.replicate k '0') = 0 := by
  rw [digitsValue_eq, Nat.ofDigitChars_replicate_zero, Nat.mul_zero]

theorem isDigit_iff {c : Char} : c.isDigit = true ↔ 48 ≤ c.toNat ∧ c.toNat ≤ 57 := by
  simp [Char.isDigit, UInt32.le_iff_toNat_le]

theorem isDigit_of_mem_toDigits {n : Nat} {c : Char} (h : c ∈ Nat.toDigits 10 n) : c.isDigit = true :=
  Nat.isDigit_of_mem_toDigits (by omega) (by omega) h

theorem toDigits_isDigit (n : Nat) : ∀ c ∈ Nat.toDigits 10 n, c.isDigit = true :=
  fun _ => isDigit_of_mem_toDigits

theorem digitsValue_lt {ds : List Char} (h : ∀ c ∈ ds, c.isDigit = true) : digitsValue ds < 10 ^ ds.length := by
  induction ds with
  | nil => simp [digitsValue]
  | cons c ds ih =>
    have hc := isDigit_iff.mp (h c (by simp))
    have hds := ih fun d hd => h d (by simp [hd])
    have hle : 10 ^ ds.length * (c.toNat - 48) ≤ 10 ^ ds.length * 9 := Nat.mul_le_mul_left _ (by omega)
    rw [digitsValue_cons, List.length_cons, pow_succ]
    omega

/-- Digits of one length sort like the numbers they stand for. -/
theorem digits_lt_iff {a b : List Char} (ha : ∀ c ∈ a, c.isDigit = true) (hb : ∀ c ∈ b, c.isDigit = true)
    (h : a.length = b.length) : a < b ↔ digitsValue a < digitsValue b := by
  induction a generalizing b with
  | nil =>
    obtain rfl := List.length_eq_zero_iff.mp h.symm
    simp
  | cons c a ih =>
    cases b with
    | nil => simp at h
    | cons d b =>
      have hl : a.length = b.length := by simpa using h
      have hc := isDigit_iff.mp (ha c (by simp))
      have hd := isDigit_iff.mp (hb d (by simp))
      have ha' : ∀ x ∈ a, x.isDigit = true := fun x hx => ha x (by simp [hx])
      have hb' : ∀ x ∈ b, x.isDigit = true := fun x hx => hb x (by simp [hx])
      have hva := digitsValue_lt ha'
      have hvb := digitsValue_lt hb'
      have hcd : c < d ↔ c.toNat < d.toNat := Iff.rfl
      have hce : c = d ↔ c.toNat = d.toNat := Char.toNat_inj.symm
      rw [List.cons_lt_cons_iff, ih ha' hb' hl, digitsValue_cons, digitsValue_cons, hl, hcd, hce]
      rw [hl] at hva
      constructor
      -- A greater first digit is worth more than all digits behind it.
      · rintro (hlt | ⟨heq, hlt⟩)
        · have := Nat.mul_le_mul_left (10 ^ b.length) (show c.toNat - 48 + 1 ≤ d.toNat - 48 by omega)
          rw [Nat.mul_add, Nat.mul_one] at this
          omega
        · rw [heq]
          omega
      · intro hlt
        obtain hcd | hcd | hcd := Nat.lt_trichotomy c.toNat d.toNat
        · exact .inl hcd
        · rw [hcd] at hlt
          exact .inr ⟨hcd, by omega⟩
        · have := Nat.mul_le_mul_left (10 ^ b.length) (show d.toNat - 48 + 1 ≤ c.toNat - 48 by omega)
          rw [Nat.mul_add, Nat.mul_one] at this
          omega

theorem head?_toDigits {n : Nat} (h : n ≠ 0) : (Nat.toDigits 10 n).head? ≠ some '0' := by
  intro hz
  obtain ⟨ds, hds⟩ := List.head?_eq_some_iff.mp hz
  have hvalue : digitsValue ds = n := by simpa [hds, digitsValue_cons] using digitsValue_toDigits n
  have hlt : digitsValue ds < 10 ^ ds.length :=
    digitsValue_lt fun c hc => toDigits_isDigit n c (by simp [hds, hc])
  cases ds with
  | nil => exact h hvalue.symm
  | cons c ds =>
    have hle := (Nat.length_toDigits_le_iff (by omega) (by simp)).mpr (hvalue ▸ hlt)
    rw [hds] at hle
    simp at hle

theorem toList_padded (w n : Nat) : (padded w n).toList =
    List.replicate (w - (Nat.toDigits 10 n).length) '0' ++ Nat.toDigits 10 n := by
  simp [padded]

theorem padded_isDigit (w n : Nat) : ∀ c ∈ (padded w n).toList, c.isDigit = true := by
  intro c hc
  rw [toList_padded, List.mem_append, List.mem_replicate] at hc
  obtain ⟨-, rfl⟩ | hc := hc
  · rfl
  · exact isDigit_of_mem_toDigits hc

@[simp]
theorem digitsValue_padded (w n : Nat) : digitsValue (padded w n).toList = n := by
  rw [toList_padded, digitsValue_append]
  simp

theorem length_padded {w n : Nat} (hw : 0 < w) (h : n < 10 ^ w) : (padded w n).toList.length = w := by
  have := (Nat.length_toDigits_le_iff (by omega) hw).mpr h
  rw [toList_padded, List.length_append, List.length_replicate]
  omega

theorem padded_lt_iff {w m n : Nat} (hw : 0 < w) (hm : m < 10 ^ w) (hn : n < 10 ^ w) :
    (padded w m).toList < (padded w n).toList ↔ m < n := by
  rw [digits_lt_iff (padded_isDigit w m) (padded_isDigit w n) (by rw [length_padded hw hm, length_padded hw hn]),
    digitsValue_padded, digitsValue_padded]

theorem padded_inj {w m n : Nat} : (padded w m).toList = (padded w n).toList ↔ m = n :=
  ⟨fun h => by simpa using congrArg digitsValue h, fun h => by rw [h]⟩

/-- Texts whose beginnings have one length are told apart there, or else by the rest. -/
theorem append_lt_append_iff {a b x y : List Char} (h : a.length = b.length) :
    a ++ x < b ++ y ↔ a < b ∨ a = b ∧ x < y := by
  induction a generalizing b with
  | nil =>
    obtain rfl := List.length_eq_zero_iff.mp h.symm
    simp
  | cons c a ih =>
    cases b with
    | nil => simp at h
    | cons d b =>
      rw [List.cons_append, List.cons_append, List.cons_lt_cons_iff, List.cons_lt_cons_iff,
        ih (by simpa using h), List.cons.injEq]
      tauto

end Outreach.Text
