import Mathlib
import Outreach.Proofs.Text.Decimal
import Outreach.Uuid

/-! Identifiers read back from their canonical texts. -/
namespace Outreach

theorem Text.splitWhere_ne_nil (p : Char → Bool) (s : List Char) : splitWhere p s ≠ [] := by
  cases s with
  | nil => simp [splitWhere]
  | cons c r =>
    unfold splitWhere
    split
    · simp
    · split <;> simp

/-- The pieces and the places between them make up the text. -/
theorem Text.length_splitWhere (p : Char → Bool) (s : List Char) :
    ((splitWhere p s).map List.length).sum + (splitWhere p s).length = s.length + 1 := by
  induction s with
  | nil => simp [splitWhere]
  | cons c r ih =>
    have hne := splitWhere_ne_nil p r
    unfold splitWhere
    split
    · simp only [List.map_cons, List.sum_cons, List.length_cons, List.length_nil]
      omega
    · split
      · rename_i h
        exact absurd h hne
      · rename_i w ws h
        rw [h] at ih
        simp only [List.map_cons, List.sum_cons, List.length_cons] at ih ⊢
        omega

namespace Uuid
open Text

theorem length_text (u : Uuid) : u.text.toList.length = 36 := by
  have h := u.canonical
  simp only [hasShape, Bool.and_eq_true, beq_iff_eq] at h
  have hsum := length_splitWhere (· == '-') u.text.toList
  have hlen := congrArg List.length h.1
  rw [splitAt] at h hlen
  rw [h.1] at hsum
  simp only [List.length_map] at hlen
  rw [hlen] at hsum
  simp at hsum
  omega

theorem isLowerHex_or (u : Uuid) : ∀ c ∈ u.text.toList, c = '-' ∨ isLowerHex c = true := by
  have h := u.canonical
  simp only [hasShape, Bool.and_eq_true, List.all_eq_true, Bool.or_eq_true, beq_iff_eq] at h
  exact h.2

theorem toLower_of_isLowerHex {c : Char} (h : c = '-' ∨ isLowerHex c = true) : c.toLower = c := by
  rw [Char.toLower, dif_neg]
  rintro ⟨hA, hZ⟩
  have hA : 65 ≤ c.toNat := hA
  have hZ : c.toNat ≤ 90 := hZ
  obtain rfl | h := h
  · exact absurd hA (by decide)
  · simp only [isLowerHex, Bool.or_eq_true, Bool.and_eq_true, decide_eq_true_eq, isDigit_iff] at h
    obtain h | h := h
    · omega
    · have : 97 ≤ c.toNat := h.1
      omega

theorem ofLower?_text (u : Uuid) : ofLower? u.text.toList = some u := by
  have hlower : String.ofList (u.text.toList.map Char.toLower) = u.text := by
    rw [List.map_congr_left fun c hc => toLower_of_isLowerHex (u.isLowerHex_or c hc), List.map_id',
      String.ofList_toList]
  simp only [ofLower?, hlower]
  exact dif_pos u.canonical

theorem text_inj {u v : Uuid} : u.text = v.text ↔ u = v := by
  cases u
  cases v
  simp

theorem parse?_text (u : Uuid) : parse? u.text = some u := by
  have hlen := u.length_text
  have hbraces : stripBraces? u.text.toList = none := by
    unfold stripBraces?
    split
    · rename_i r heq
      exact absurd (u.isLowerHex_or '\x7b' (by simp [heq])) (by decide)
    · rfl
  have hurn : after? "urn:uuid:".toList u.text.toList = none := by
    unfold after?
    split
    · rename_i hp
      have hmem := (List.isPrefixOf_iff_prefix.mp hp).subset (by decide : 'u' ∈ "urn:uuid:".toList)
      exact absurd (u.isLowerHex_or 'u' hmem) (by decide)
    · rfl
  simp only [parse?, hlen, hbraces, hurn]
  rw [if_neg (by decide), ofLower?_text]

end Uuid
end Outreach
