import Mathlib.Data.List.DropRight
import Outreach.Number.Shortest
import Outreach.Proofs.Text.Decimal

/-! The digits of the shortest decimal of a number: zero reads back as no other number, so there is a first
digit, and it is not a zero. -/
namespace Outreach.Binary64
open Text

variable {x : Binary64}

theorem roundingInterval_pos (h : x.significand ≠ 0) : 0 < x.roundingInterval.1 := by
  have hnum (e : Int) : 0 < (if 0 ≤ e then (Nat.pow 2 e.toNat, 1) else (1, Nat.pow 2 (-e).toNat)).1 := by
    split
    · exact Nat.pow_pos (by omega)
    · exact Nat.one_pos
  have hlo {b n : Nat} (hb : b ≤ 2) (hn : 0 < n) : 0 < (4 * x.significand - b) * n := Nat.mul_pos (by omega) hn
  simp only [roundingInterval]
  split
  · exact hlo (by omega) (hnum _)
  · exact hlo (by omega) (hnum _)

theorem readsBack_zero (h : x.significand ≠ 0) (k : Int) : x.readsBack 0 k = false := by
  have hlo := roundingInterval_pos h
  have hmul (n : Nat) : x.roundingInterval.1 * 10 ^ n ≠ 0 := (Nat.mul_pos hlo (Nat.pow_pos (by omega))).ne'
  simp only [readsBack]
  by_cases hk : 0 ≤ k
  · simp [hk, hlo.ne']
  · simp [hk, hmul]

theorem le_roundHalfEven (a b : Nat) : a / b ≤ roundHalfEven a b := by
  simp only [roundHalfEven]
  split <;> omega

theorem atPrecision?_eq (x : Binary64) (n : Nat) : ∃ a b k, x.atPrecision? n =
    match x.readsBack (a / b) k, x.readsBack (a / b + 1) k with
    | true, true => some (roundHalfEven a b, k)
    | true, false => some (a / b, k)
    | false, true => some (a / b + 1, k)
    | false, false => none :=
  ⟨_, _, _, rfl⟩

theorem atPrecision?_pos (h : x.significand ≠ 0) {n : Nat} {d : Nat × Int} (hd : x.atPrecision? n = some d) :
    d.1 ≠ 0 := by
  obtain ⟨a, b, k, heq⟩ := x.atPrecision?_eq n
  have hlow (hr : x.readsBack (a / b) k = true) : a / b ≠ 0 := by
    intro hz
    rw [hz, readsBack_zero h] at hr
    exact Bool.false_ne_true hr
  rw [heq] at hd
  split at hd <;> cases hd
  · rename_i hr _
    have hpos := Nat.pos_of_ne_zero (hlow hr)
    exact (hpos.trans_le (le_roundHalfEven a b)).ne'
  · rename_i hr _
    exact hlow hr
  · exact Nat.succ_ne_zero _

/-- Without a decimal of seventeen digits the outcome would be zero with exponent zero. -/
theorem shortest_pos (h : x.significand ≠ 0) : x.shortest = (0, 0) ∨ x.shortest.1 ≠ 0 := by
  rw [shortest]
  cases hf : (List.range 17).findSome? fun i => x.atPrecision? (i + 1) with
  | none => exact .inl rfl
  | some d =>
    obtain ⟨i, -, hd⟩ := List.exists_of_findSome?_eq_some hf
    exact .inr (atPrecision?_pos h hd)

theorem stripZeros_eq (s : List Char) : stripZeros s = s.dropWhile (· == '0') := by
  induction s with
  | nil => rfl
  | cons c r ih =>
    by_cases h : c = '0'
    · subst h
      rw [stripZeros, ih]
      rfl
    · rw [List.dropWhile_cons_of_neg (by simpa using h)]
      simp [stripZeros, h]

def significantDigits (c : Nat) : List Char := (stripZeros (Nat.toDigits 10 c).reverse).reverse

theorem significantDigits_eq (c : Nat) : significantDigits c = (Nat.toDigits 10 c).rdropWhile (· == '0') := by
  rw [significantDigits, stripZeros_eq, List.rdropWhile]

theorem significantDigits_isDigit (c : Nat) : ∀ d ∈ significantDigits c, d.isDigit = true := by
  intro d hd
  rw [significantDigits_eq] at hd
  exact toDigits_isDigit c d ((List.rdropWhile_prefix _ _).subset hd)

theorem significantDigits_ne_nil {c : Nat} (h : c ≠ 0) : significantDigits c ≠ [] := by
  intro hnil
  rw [significantDigits_eq, List.rdropWhile_eq_nil_iff] at hnil
  have hrep := List.eq_replicate_of_mem (a := '0') fun d hd => by simpa using hnil d hd
  have hzero := digitsValue_toDigits c
  rw [hrep, digitsValue_zeros] at hzero
  exact h hzero.symm

theorem head?_significantDigits {c : Nat} (h : c ≠ 0) : (significantDigits c).head? ≠ some '0' := by
  intro hz
  obtain ⟨ds, hds⟩ := List.head?_eq_some_iff.mp hz
  have hp : significantDigits c <+: Nat.toDigits 10 c := significantDigits_eq c ▸ List.rdropWhile_prefix _ _
  obtain ⟨t, ht⟩ := hp
  exact head?_toDigits h (by rw [← ht, hds]; rfl)

end Outreach.Binary64
