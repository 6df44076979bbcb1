import Mathlib
import Outreach.Proofs.Text.Lowering

/-! Plain characters, which nothing is lower-cased to but themselves and, where they are letters, their ASCII capitals. Hence
a text has a lower-case form of plain characters exactly when it differs from it in the case of ASCII letters only. -/
namespace Outreach.Text
variable {c : Char} {s : List Char}

/-- ASCII characters and white space; not the small letter that the sign for Kelvin is lower-cased to. -/
def IsPlain (c : Char) : Prop := c.toNat < 128 ∧ c ≠ 'k' ∨ isBlank c = true

def blankRanges : List (Nat × Nat) :=
  [(0x85, 0x85), (0xA0, 0xA0), (0x1680, 0x1680), (0x2000, 0x200A), (0x2028, 0x2029), (0x202F, 0x202F), (0x205F, 0x205F),
    (0x3000, 0x3000)]

theorem exists_blankRange (h : isBlank c = true) (hc : 128 ≤ c.toNat) : ∃ r ∈ blankRanges, r.1 ≤ c.toNat ∧ c.toNat ≤ r.2 := by
  simp only [isBlank, Bool.or_eq_true, Bool.and_eq_true, decide_eq_true_eq, beq_iff_eq] at h
  simp only [blankRanges, List.exists_mem_cons_iff, List.not_mem_nil, false_and, exists_false, or_false]
  omega

def AreForeign (lo hi : Int) : Prop :=
  128 ≤ lo ∧ (hi < 0xD800 ∨ 0xDFFF < lo ∧ hi < 0x110000) ∧ ∀ r ∈ blankRanges, hi < r.1 ∨ r.2 < lo

instance (lo hi : Int) : Decidable (AreForeign lo hi) := inferInstanceAs (Decidable (_ ∧ _ ∧ _))

theorem AreForeign.not_isPlain {lo hi code : Int} (h : AreForeign lo hi) (hlo : lo ≤ code) (hhi : code ≤ hi) :
    ¬ IsPlain (Char.ofNat code.toNat) := by
  obtain ⟨hascii, hscalar, hblank⟩ := h
  have hvalid : code.toNat.isValidChar := by
    rw [Nat.isValidChar]
    omega
  have hcode : (Char.ofNat code.toNat).toNat = code.toNat := by
    rw [Char.ofNat, dif_pos hvalid]
    rfl
  rintro (⟨hlt, -⟩ | hb)
  · omega
  · obtain ⟨r, hr, hfirst, hlast⟩ := exists_blankRange hb (by omega)
    have := hblank r hr
    omega

def kelvin : CaseRange := ⟨8490, 8490, 1, -8383⟩

/-- The table leads to plain characters in one place only. -/
theorem lowerRanges_foreign : ∀ r ∈ lowerRanges, r = kelvin ∨ AreForeign (r.first + r.shift) (r.last + r.shift) := by
  decide +kernel

theorem lowerRanges_apart : ∀ r ∈ lowerRanges, ∀ b ∈ blankRanges, r.last < b.1 ∨ b.2 < r.first := by
  decide +kernel

theorem CaseRange.le_of_covers {r : CaseRange} {code : Nat} (h : r.covers code = true) : r.first ≤ code ∧ code ≤ r.last := by
  simp only [covers, Bool.and_eq_true, decide_eq_true_eq] at h
  exact h.1

theorem toLower_of_not_ascii (h : ¬ c.toNat < 128) : c.toLower = c := by
  refine Char.toLower_eq_of_not_isUpper ?_
  simp only [Char.isUpper, decide_eq_true_eq, UInt32.le_iff_toNat_le, not_and, not_le]
  exact fun _ => lt_of_lt_of_le (by decide) (not_lt.mp h)

theorem lowerChar_of_isBlank (h : isBlank c = true) (hc : ¬ c.toNat < 128) : lowerChar c = [c] := by
  obtain ⟨b, hb, hfirst, hlast⟩ := exists_blankRange h (not_lt.mp hc)
  have hdotted : ¬ (c.toNat == 0x130) = true := by
    have : ∀ b ∈ blankRanges, 0x130 < b.1 ∨ b.2 < 0x130 := by decide
    have := this b hb
    rw [beq_iff_eq]
    omega
  have hnone : lowerRanges.find? (·.covers c.toNat) = none := by
    refine List.find?_eq_none.mpr fun r hr hcovers => ?_
    have := CaseRange.le_of_covers hcovers
    have := lowerRanges_apart r hr b hb
    omega
  rw [lowerChar, if_neg hc, if_neg hdotted, hnone]

instance (c : Char) : Decidable (IsPlain c) := inferInstanceAs (Decidable (_ ∨ _))

theorem forall_isPlain (h : s.all (IsPlain ·) = true) : ∀ c ∈ s, IsPlain c := by simpa using h

/-- What is neither an ASCII character nor white space is lower-cased to something that is not plain. -/
theorem exists_not_isPlain (hascii : ¬ c.toNat < 128) (hblank : isBlank c = false) (before after : List Char) :
    ∃ d ∈ lowerHere before c after, ¬ IsPlain d := by
  unfold lowerHere
  split_ifs with hsigma hends
  · exact ⟨_, List.mem_singleton_self _, by decide⟩
  · exact ⟨_, List.mem_singleton_self _, by decide⟩
  · unfold lowerChar
    rw [if_neg hascii]
    split_ifs with hdotted
    · exact ⟨_, List.mem_cons_of_mem _ (List.mem_singleton_self _), by decide⟩
    · split
      · rename_i r hfound
        refine ⟨_, List.mem_singleton_self _, ?_⟩
        have hcovers : r.covers c.toNat = true := by simpa using List.find?_some hfound
        have hrange := CaseRange.le_of_covers hcovers
        obtain rfl | hforeign := lowerRanges_foreign r (List.mem_of_find?_eq_some hfound)
        · have hcode : c.toNat = 8490 := le_antisymm hrange.2 hrange.1
          rw [hcode]
          decide
        · exact hforeign.not_isPlain (by omega) (by omega)
      · refine ⟨c, List.mem_singleton_self _, ?_⟩
        simp [IsPlain, hascii, hblank]

/-- The form of a character is plain exactly when lower-casing it as an ASCII letter makes it so, and does just that. -/
theorem lowerHere_cases (before after : List Char) (c : Char) : lowerHere before c after = [c.toLower] ∨
    (∃ d ∈ lowerHere before c after, ¬ IsPlain d) ∧ ¬ IsPlain c.toLower := by
  by_cases hascii : c.toNat < 128
  · have hsigma : c ≠ capitalSigma := by
      rintro rfl
      exact absurd hascii (by decide)
    exact .inl ((if_neg hsigma).trans (lowerChar_ascii hascii))
  · rw [toLower_of_not_ascii hascii]
    cases hblank : isBlank c with
    | true =>
      have hsigma : c ≠ capitalSigma := by
        rintro rfl
        exact absurd hblank (by decide)
      exact .inl ((if_neg hsigma).trans (lowerChar_of_isBlank hblank hascii))
    | false => exact .inr ⟨exists_not_isPlain hascii hblank before after, by simp [IsPlain, hascii, hblank]⟩

theorem lowerAfter_eq_iff {before u : List Char} (hu : ∀ d ∈ u, IsPlain d) :
    lowerAfter before s = u ↔ s.map Char.toLower = u := by
  induction s generalizing before u with
  | nil => rfl
  | cons c r ih =>
    rw [lowerAfter_cons, List.map_cons]
    obtain hhere | ⟨⟨d, hd, hforeign⟩, hletter⟩ := lowerHere_cases before r c
    · rw [hhere, List.singleton_append]
      cases u with
      | nil => simp
      | cons d u => rw [List.cons.injEq, List.cons.injEq, ih (List.forall_mem_cons.mp hu).2]
    · -- The foreign form would have to stand in the plain text, and so would the character itself.
      refine iff_of_false ?_ ?_
      · rintro rfl
        exact hforeign (hu d (List.mem_append_left _ hd))
      · rintro rfl
        exact hletter (hu _ List.mem_cons_self)

/-- Only the case of ASCII letters is lost in a lower-case form of plain characters. -/
theorem toList_lower_eq_iff {text : String} {u : List Char} (hu : ∀ d ∈ u, IsPlain d) :
    (lower text).toList = u ↔ text.toList.map Char.toLower = u := by
  rw [toList_lower, lowerAfter_eq_iff hu]

end Outreach.Text
