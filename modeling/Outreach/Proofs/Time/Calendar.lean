import Mathlib.Tactic.IntervalCases
import Outreach.Time.Calendar

/-! Days and dates: every day has one date, and dates come in the order of the days. -/
namespace Outreach.Time

/-- A day of an era by century, four-year cycle, year of the cycle and day of that year. -/
structure EraDay where
  century : Nat
  cycle : Nat
  year : Nat
  day : Nat

namespace EraDay

def days (e : EraDay) : Nat := 36524 * e.century + 1461 * e.cycle + 365 * e.year + e.day

def yearOfEra (e : EraDay) : Nat := 100 * e.century + 4 * e.cycle + e.year

structure Valid (e : EraDay) : Prop where
  century : e.century ≤ 3
  cycle : e.cycle ≤ 24
  year : e.year ≤ 3
  day : e.day ≤ 365
  leap : e.day = 365 → e.year = 3 ∧ (e.cycle = 24 → e.century = 3)

theorem exists_days (d : Nat) (h : d < 146097) : ∃ e : EraDay, e.Valid ∧ e.days = d := by
  by_cases hl : d = 146096
  · exact ⟨⟨3, 24, 3, 365⟩, ⟨by simp, by simp, by simp, by simp, by simp⟩, by simp [days, hl]⟩
  have hc : d / 36524 ≤ 3 := by omega
  have hq : d % 36524 / 1461 ≤ 24 := by omega
  by_cases hy : d % 36524 % 1461 = 1460
  · refine ⟨⟨d / 36524, d % 36524 / 1461, 3, 365⟩, ⟨hc, hq, by simp, by simp, ?_⟩, ?_⟩
    · intro _
      refine ⟨rfl, ?_⟩
      simp only
      omega
    · simp only [days]; omega
  · refine ⟨⟨d / 36524, d % 36524 / 1461, d % 36524 % 1461 / 365, d % 36524 % 1461 % 365⟩,
      ⟨hc, hq, ?_, ?_, ?_⟩, ?_⟩
    · simp only; omega
    · simp only; omega
    · simp only; omega
    · simp only [days]; omega

def month (e : EraDay) : Nat := (5 * e.day + 2) / 153

variable {e : EraDay}

theorem month_le (h : e.Valid) : e.month ≤ 11 := by
  have := h.day
  simp only [month]
  omega

theorem days_lt (h : e.Valid) : e.days < 146097 := by
  obtain ⟨h₁, h₂, h₃, h₄, h₅⟩ := h
  simp only [days]
  omega

theorem yearOfEra_lt (h : e.Valid) : e.yearOfEra < 400 := by
  obtain ⟨h₁, h₂, h₃, h₄, h₅⟩ := h
  simp only [yearOfEra]
  omega

theorem days_eq (h : e.Valid) :
    e.days = 365 * e.yearOfEra + e.yearOfEra / 4 - e.yearOfEra / 100 + e.day := by
  obtain ⟨h₁, h₂, h₃, h₄, h₅⟩ := h
  have hq : e.yearOfEra / 4 = 25 * e.century + e.cycle := by simp only [yearOfEra]; omega
  have hc : e.yearOfEra / 100 = e.century := by simp only [yearOfEra]; omega
  rw [hq, hc]
  simp only [yearOfEra, days]
  omega

theorem yearOfEra_eq (h : e.Valid) :
    (e.days - e.days / 1460 + e.days / 36524 - e.days / 146096) / 365 = e.yearOfEra := by
  obtain ⟨h₁, h₂, h₃, h₄, h₅⟩ := h
  obtain ⟨c, q, y, t⟩ := e
  simp only [days, yearOfEra] at *
  have hc : (36524 * c + 1461 * q + 365 * y + t) / 36524 =
      c + (36524 * c + 1461 * q + 365 * y + t) / 146096 := by
    by_cases hl : 36524 * c + 1461 * q + 365 * y + t = 146096
    · omega
    · have h₆ : 1461 * q + 365 * y + t < 36524 := by omega
      omega
  rw [hc]
  by_cases hr : 24 * c + q + 365 * y + t < 1460
  · have h₆ : (36524 * c + 1461 * q + 365 * y + t) / 1460 = 25 * c + q := by omega
    rw [h₆]
    omega
  · have h₆ : (36524 * c + 1461 * q + 365 * y + t) / 1460 = 25 * c + q + 1 := by omega
    rw [h₆]
    omega

theorem isLeap_of_day (era : Int) (h : e.Valid) (hd : e.day = 365) :
    isLeap (e.yearOfEra + era * 400 + 1) = true := by
  obtain ⟨h₁, h₂, h₃, h₄, h₅⟩ := h
  obtain ⟨hy, hc⟩ := h₅ hd
  simp only [isLeap, yearOfEra, hy, Bool.or_eq_true, Bool.and_eq_true, beq_iff_eq, bne_iff_ne]
  push_cast
  omega

end EraDay

theorem fdiv_era (n : Int) (era : Int) (d : Nat) (hd : d < 146097) (hn : n = era * 146097 + d) :
    n.fdiv 146097 = era := by
  rw [Int.fdiv_eq_ediv_of_nonneg _ (by omega)]
  omega

theorem exists_eraDay (n : Int) : ∃ (era : Int) (e : EraDay), e.Valid ∧ n = era * 146097 + e.days - 719468 := by
  obtain ⟨e, he, hd⟩ := EraDay.exists_days ((n + 719468) % 146097).toNat (by omega)
  exact ⟨(n + 719468) / 146097, e, he, by omega⟩

def monthAfterMarch (m : Nat) : Nat := if m < 10 then m + 3 else m - 9

namespace Date

theorem ofDays_eq (era : Int) {e : EraDay} (h : e.Valid) :
    ofDays (era * 146097 + e.days - 719468) =
      ⟨e.yearOfEra + era * 400 + (if monthAfterMarch e.month ≤ 2 then 1 else 0), monthAfterMarch e.month,
        e.day - (153 * e.month + 2) / 5 + 1⟩ := by
  have hd := e.days_lt h
  have hy := e.yearOfEra_eq h
  have hs := e.days_eq h
  have hz : era * 146097 + (e.days : Int) - 719468 + 719468 = era * 146097 + e.days := by omega
  have hera := fdiv_era _ era e.days hd hz
  have hdoe : (era * 146097 + (e.days : Int) - 719468 + 719468 - era * 146097).toNat = e.days := by omega
  have hdoy : e.days - (365 * e.yearOfEra + e.yearOfEra / 4 - e.yearOfEra / 100) = e.day := by omega
  simp only [ofDays, hera, hdoe, hy, hdoy, EraDay.month, monthAfterMarch]
  rfl

def Valid (d : Date) : Prop := 1 ≤ d.month ∧ d.month ≤ 12 ∧ 1 ≤ d.day ∧ d.day ≤ daysInMonth d.year d.month

theorem ofDays_valid (n : Int) : (ofDays n).Valid := by
  obtain ⟨era, e, he, rfl⟩ := exists_eraDay n
  rw [ofDays_eq era he]
  have hm := e.month_le he
  have hleap := e.isLeap_of_day era he
  have hday := he.day
  have hdef : e.month = (5 * e.day + 2) / 153 := rfl
  generalize e.month = m at *
  simp only [Valid]
  interval_cases m <;> simp [daysInMonth, monthAfterMarch] <;> try omega
  split
  · omega
  · have : e.day ≠ 365 := fun h => by simp_all
    omega

def marchYear (d : Date) : Int := if d.month ≤ 2 then d.year - 1 else d.year

def marchMonth (d : Date) : Nat := (d.month + 9) % 12

def daysBefore (m : Nat) : Nat := (153 * m + 2) / 5

theorem toDays_eq (d : Date) : d.toDays =
    365 * d.marchYear + d.marchYear / 4 - d.marchYear / 100 + d.marchYear / 400 +
      (daysBefore d.marchMonth + d.day : Nat) - 719469 := by
  have hf : d.marchYear.fdiv 400 = d.marchYear / 400 := Int.fdiv_eq_ediv_of_nonneg _ (by omega)
  simp only [marchYear] at hf
  simp only [toDays, marchYear, hf, marchMonth, daysBefore]
  push_cast
  omega

theorem toDays_ofDays (n : Int) : (ofDays n).toDays = n := by
  obtain ⟨era, e, he, rfl⟩ := exists_eraDay n
  have hm := e.month_le he
  have hs := e.days_eq he
  have hy := e.yearOfEra_lt he
  have hday := he.day
  have hdef : e.month = (5 * e.day + 2) / 153 := rfl
  have hmy : (ofDays (era * 146097 + e.days - 719468)).marchYear = e.yearOfEra + era * 400 := by
    rw [ofDays_eq era he]
    simp only [marchYear]
    split <;> omega
  have hmm : (ofDays (era * 146097 + e.days - 719468)).marchMonth = e.month := by
    rw [ofDays_eq era he]
    simp only [marchMonth, monthAfterMarch]
    split <;> omega
  rw [toDays_eq, hmy, hmm, ofDays_eq era he, daysBefore]
  push_cast
  omega

def Before (d e : Date) : Prop :=
  d.year < e.year ∨ d.year = e.year ∧ (d.month < e.month ∨ d.month = e.month ∧ d.day < e.day)

def yearLength (y : Int) : Nat := if isLeap y then 366 else 365

theorem le_yearLength (y : Int) : 365 ≤ yearLength y := by
  unfold yearLength
  split <;> omega

theorem dayOfYear_le {d : Date} (h : d.Valid) :
    daysBefore d.marchMonth + d.day ≤ yearLength (d.marchYear + 1) := by
  obtain ⟨h₁, h₂, h₃, h₄⟩ := h
  obtain ⟨y, m, k⟩ := d
  have hlen := le_yearLength (marchYear ⟨y, m, k⟩ + 1)
  simp only [marchMonth, daysBefore] at *
  by_cases hm : m = 2
  · subst hm
    have hy : marchYear ⟨y, 2, k⟩ + 1 = y := by simp [marchYear]
    rw [hy] at hlen ⊢
    simp only [daysInMonth] at h₄
    unfold yearLength
    split at h₄ <;> simp_all <;> omega
  · interval_cases m <;> simp only [daysInMonth] at h₄ <;> omega

theorem dayOfYear_le_daysBefore {d : Date} (h : d.Valid) {m : Nat} (hm : d.marchMonth < m) (hle : m ≤ 11) :
    daysBefore d.marchMonth + d.day ≤ daysBefore m := by
  obtain ⟨h₁, h₂, h₃, h₄⟩ := h
  obtain ⟨y, n, k⟩ := d
  simp only [marchMonth] at *
  interval_cases n <;> simp [daysInMonth, daysBefore] at * <;> omega

theorem yearLength_eq (y : Int) : (yearLength (y + 1) : Int) =
    365 + ((y + 1) / 4 - y / 4) - ((y + 1) / 100 - y / 100) + ((y + 1) / 400 - y / 400) := by
  have hl : isLeap (y + 1) = true ↔ (y + 1) % 4 = 0 ∧ (y + 1) % 100 ≠ 0 ∨ (y + 1) % 400 = 0 := by
    simp [isLeap]
  by_cases h : isLeap (y + 1) = true
  · have hy : yearLength (y + 1) = 366 := by simp [yearLength, h]
    rw [hl] at h
    omega
  · have hy : yearLength (y + 1) = 365 := by simp [yearLength, h]
    rw [hl] at h
    omega

theorem daysOfYears_le {a b : Int} (h : a < b) :
    365 * a + a / 4 - a / 100 + a / 400 + yearLength (a + 1) ≤ 365 * b + b / 4 - b / 100 + b / 400 := by
  rw [yearLength_eq]
  have hc : b / 100 - (a + 1) / 100 ≤ b - (a + 1) := by omega
  omega

theorem toDays_lt_of_before {d e : Date} (hd : d.Valid) (he : e.Valid) (h : d.Before e) :
    d.toDays < e.toDays := by
  have hdy := dayOfYear_le hd
  have hbefore : d.marchYear < e.marchYear ∨
      d.marchYear = e.marchYear ∧ (d.marchMonth < e.marchMonth ∨ d.marchMonth = e.marchMonth ∧ d.day < e.day) := by
    obtain ⟨h₁, h₂, -, -⟩ := hd
    obtain ⟨h₃, h₄, -, -⟩ := he
    simp only [Before] at h
    simp only [marchYear, marchMonth]
    split <;> split <;> omega
  rw [toDays_eq, toDays_eq]
  obtain hy | ⟨hy, hm | ⟨hm, hk⟩⟩ := hbefore
  · have hle := daysOfYears_le hy
    have := he.2.2.1
    omega
  · have := dayOfYear_le_daysBefore hd hm (by simp only [marchMonth]; omega)
    have := he.2.2.1
    rw [hy]
    omega
  · rw [hy, hm]
    omega

theorem before_or (d e : Date) : d.Before e ∨ e.Before d ∨ d = e := by
  obtain ⟨y, m, k⟩ := d
  obtain ⟨y', m', k'⟩ := e
  simp only [Before, mk.injEq]
  omega

theorem ofDays_before {m n : Int} (h : m < n) : (ofDays m).Before (ofDays n) := by
  have hm := toDays_ofDays m
  have hn := toDays_ofDays n
  obtain hb | hb | hb := before_or (ofDays m) (ofDays n)
  · exact hb
  · have := toDays_lt_of_before (ofDays_valid n) (ofDays_valid m) hb
    omega
  · rw [hb] at hm
    omega

end Date
end Outreach.Time
