import Mathlib.Data.List.Forall2
import Outreach.Proofs.Text.Decimal
import Outreach.Proofs.Time.Calendar
import Outreach.Time.Instant

/-! Instants as text, to the microsecond, and how it sorts. Texts sort like time
as long as the years are written with four digits. -/
namespace Outreach.Instant
open Time Text

structure Ordinary (t : Instant) : Prop where
  nanos : t.nanos < 1000000000
  min : minSeconds ≤ t.seconds
  max : t.seconds ≤ maxSeconds

instance (t : Instant) : Decidable t.Ordinary :=
  decidable_of_iff (t.nanos < 1000000000 ∧ minSeconds ≤ t.seconds ∧ t.seconds ≤ maxSeconds)
    ⟨fun ⟨hn, hmin, hmax⟩ => ⟨hn, hmin, hmax⟩, fun h => ⟨h.nanos, h.min, h.max⟩⟩

/-- A wait leads from one time that a clock can show to another. -/
theorem ordinary_of_addSeconds? {t u : Instant} {n : Nat} (ht : t.Ordinary) (h : t.addSeconds? n = some u) :
    u.Ordinary := by
  have hnanos := ht.nanos
  rw [addSeconds?, if_pos (by simp [hnanos])] at h
  unfold inRange? at h
  split at h
  · rename_i hrange
    cases h
    exact ⟨hnanos, hrange.1, hrange.2⟩
  · cases h

def year (t : Instant) : Int := t.date.year

def toMicros (t : Instant) : Instant := ⟨t.seconds, t.nanos / 1000 * 1000⟩

def row : List (Nat × Char) → List Nat → List Char
  | (w, c) :: ws, n :: ns => (padded w n).toList ++ c :: row ws ns
  | _, _ => []

def rowLayout : List (Nat × Char) := [(2, '-'), (2, 'T'), (2, ':'), (2, ':'), (2, '.'), (6, 'Z')]

def withinYear (t : Instant) : List Nat :=
  [t.date.month, t.date.day, t.secondOfDay / 3600, t.secondOfDay / 60 % 60, t.secondOfDay % 60, t.nanos / 1000]

theorem toList_microsText {t : Instant} (h : t.nanos < 1000000000) :
    t.microsText.toList = (yearText t.year).toList ++ '-' :: row rowLayout t.withinYear := by
  have hz : t.nanos / 1000000000 = 0 := by omega
  have hm : t.nanos % 1000000000 = t.nanos := by omega
  simp [microsText, secondText, row, rowLayout, withinYear, year, hz, hm]

def Fits (ws : List (Nat × Char)) (ns : List Nat) : Prop :=
  List.Forall₂ (fun w n => 0 < w.1 ∧ n < 10 ^ w.1) ws ns

theorem row_lt_iff {ws : List (Nat × Char)} {a b : List Nat} (ha : Fits ws a) (hb : Fits ws b) :
    row ws a < row ws b ↔ a < b := by
  induction ws generalizing a b with
  | nil =>
    cases ha
    cases hb
    simp [row]
  | cons w ws ih =>
    cases ha with
    | cons hm ha =>
      cases hb with
      | cons hn hb =>
        simp only [row]
        rw [append_lt_append_iff (by rw [length_padded hm.1 hm.2, length_padded hn.1 hn.2]),
          padded_lt_iff hm.1 hm.2 hn.2, padded_inj, List.cons_lt_cons_iff, List.cons_lt_cons_iff, ih ha hb]
        simp

theorem secondOfDay_lt (t : Instant) : t.secondOfDay < 86400 := by
  have h : t.seconds.fdiv 86400 = t.seconds / 86400 := Int.fdiv_eq_ediv_of_nonneg _ (by omega)
  simp only [secondOfDay, h]
  omega

theorem seconds_eq (t : Instant) : t.seconds = t.seconds.fdiv 86400 * 86400 + t.secondOfDay := by
  have h : t.seconds.fdiv 86400 = t.seconds / 86400 := Int.fdiv_eq_ediv_of_nonneg _ (by omega)
  simp only [secondOfDay, h]
  omega

theorem date_valid (t : Instant) : t.date.Valid := Date.ofDays_valid _

theorem daysInMonth_le (y : Int) (m : Nat) : daysInMonth y m ≤ 31 := by
  unfold daysInMonth
  split
  · split <;> omega
  · omega
  · omega
  · omega
  · omega
  · omega

theorem withinYear_fits {t : Instant} (h : t.nanos < 1000000000) : Fits rowLayout t.withinYear := by
  have hs := t.secondOfDay_lt
  obtain ⟨-, h₂, -, h₄⟩ := t.date_valid
  have := daysInMonth_le t.date.year t.date.month
  simp only [Fits, rowLayout, withinYear, List.forall₂_cons, List.Forall₂.nil]
  norm_num
  omega

def Earlier (t u : Instant) : Prop :=
  t.seconds < u.seconds ∨ t.seconds = u.seconds ∧ t.nanos / 1000 < u.nanos / 1000

theorem year_le_of_earlier {t u : Instant} (h : t.Earlier u) : t.year ≤ u.year := by
  have ht := t.seconds_eq
  have hu := u.seconds_eq
  have hts := t.secondOfDay_lt
  have hus := u.secondOfDay_lt
  simp only [Earlier] at h
  by_cases hd : t.seconds.fdiv 86400 = u.seconds.fdiv 86400
  · exact le_of_eq (by rw [year, date, hd]; rfl)
  · have := Date.ofDays_before (m := t.seconds.fdiv 86400) (n := u.seconds.fdiv 86400) (by omega)
    simp only [Date.Before] at this
    simp only [year, date]
    omega

theorem withinYear_lt_of_earlier {t u : Instant} (h : t.Earlier u) (hy : t.year = u.year) :
    t.withinYear < u.withinYear := by
  have ht := t.seconds_eq
  have hu := u.seconds_eq
  have hts := t.secondOfDay_lt
  have hus := u.secondOfDay_lt
  simp only [Earlier] at h
  simp only [withinYear, List.cons_lt_cons_iff]
  by_cases hd : t.seconds.fdiv 86400 = u.seconds.fdiv 86400
  · have hdate : t.date = u.date := by rw [date, hd]; rfl
    rw [hdate]
    omega
  · have hb := Date.ofDays_before (m := t.seconds.fdiv 86400) (n := u.seconds.fdiv 86400) (by omega)
    simp only [Date.Before] at hb
    simp only [year, date] at hy ⊢
    omega

theorem earlier_or (t u : Instant) : t.Earlier u ∨ u.Earlier t ∨ t.toMicros = u.toMicros := by
  simp only [Earlier, toMicros, mk.injEq]
  omega

theorem year_toMicros (t : Instant) : t.toMicros.year = t.year := rfl

theorem withinYear_toMicros (t : Instant) : t.toMicros.withinYear = t.withinYear := by
  have h : t.nanos / 1000 * 1000 / 1000 = t.nanos / 1000 := by omega
  simp only [withinYear, toMicros, h]
  rfl

theorem withinYear_lt_iff {t u : Instant} (hy : t.year = u.year) : t.withinYear < u.withinYear ↔ t.Earlier u := by
  refine ⟨fun h => ?_, fun h => withinYear_lt_of_earlier h hy⟩
  obtain he | he | he := earlier_or t u
  · exact he
  · exact absurd (lt_trans h (withinYear_lt_of_earlier he hy.symm)) (lt_irrefl _)
  · rw [← withinYear_toMicros, he, withinYear_toMicros] at h
    exact absurd h (lt_irrefl _)

/-- The signs of a year and its digits come after a hyphen. -/
theorem append_hyphen_lt_iff {p q a b : List Char} (hp : ∀ c ∈ p, c.isDigit = true)
    (hq : ∀ c ∈ q, c.isDigit = true) (hne : p ≠ q) : p ++ '-' :: a < q ++ '-' :: b ↔ p < q := by
  induction p generalizing q with
  | nil =>
    cases q with
    | nil => exact absurd rfl hne
    | cons d q =>
      have hd := isDigit_iff.mp (hq d (by simp))
      have hlt : '-' < d := show (45 : Nat) < d.toNat by omega
      simp [List.cons_lt_cons_iff, hlt]
  | cons c p ih =>
    cases q with
    | nil =>
      have hc := isDigit_iff.mp (hp c (by simp))
      have hlt : '-' < c := show (45 : Nat) < c.toNat by omega
      simp [List.cons_lt_cons_iff, not_lt_of_gt hlt, hlt.ne']
    | cons d q =>
      rw [List.cons_append, List.cons_append, List.cons_lt_cons_iff, List.cons_lt_cons_iff]
      by_cases hcd : c = d
      · subst hcd
        rw [ih (fun x hx => hp x (by simp [hx])) (fun x hx => hq x (by simp [hx])) (by simpa using hne)]
      · simp [hcd]

theorem toList_yearText (y : Int) :
    0 ≤ y ∧ y ≤ 9999 ∧ (yearText y).toList = (padded 4 y.toNat).toList ∨
      y < 0 ∧ (yearText y).toList = '-' :: (padded 4 y.natAbs).toList ∨
      9999 < y ∧ (yearText y).toList = '+' :: (padded 4 y.natAbs).toList := by
  unfold yearText
  split
  · exact .inl ⟨by omega, by omega, rfl⟩
  · split
    · exact .inr (.inl ⟨by omega, by simp⟩)
    · exact .inr (.inr ⟨by omega, by simp⟩)

theorem padded_eq_cons (n : Nat) : ∃ c ds, (padded 4 n).toList = c :: ds ∧ '-' < c ∧ '+' < c ∧
    ∀ d ∈ ds, d.isDigit = true := by
  have hp := padded_isDigit 4 n
  cases h : (padded 4 n).toList with
  | nil => simp [toList_padded] at h
  | cons c ds =>
    have hc := isDigit_iff.mp (hp c (by simp [h]))
    exact ⟨c, ds, rfl, show (45 : Nat) < c.toNat by omega, show (43 : Nat) < c.toNat by omega,
      fun d hd => hp d (by simp [h, hd])⟩

theorem yearText_eq_cons (y : Int) : ∃ c ds, (yearText y).toList = c :: ds ∧ ∀ d ∈ ds, d.isDigit = true := by
  obtain ⟨-, -, h⟩ | ⟨-, h⟩ | ⟨-, h⟩ := toList_yearText y
  · obtain ⟨c, ds, hd, -, -, hds⟩ := padded_eq_cons y.toNat
    exact ⟨c, ds, h.trans hd, hds⟩
  · exact ⟨'-', _, h, padded_isDigit 4 y.natAbs⟩
  · exact ⟨'+', _, h, padded_isDigit 4 y.natAbs⟩

theorem yearText_append_lt_iff {y z : Int} (hne : yearText y ≠ yearText z) (a b : List Char) :
    (yearText y).toList ++ '-' :: a < (yearText z).toList ++ '-' :: b ↔ yearText y < yearText z := by
  obtain ⟨c, p, hy, hp⟩ := yearText_eq_cons y
  obtain ⟨d, q, hz, hq⟩ := yearText_eq_cons z
  rw [String.lt_iff_toList_lt, hy, hz, List.cons_append, List.cons_append, List.cons_lt_cons_iff,
    List.cons_lt_cons_iff]
  by_cases hcd : c = d
  · subst hcd
    have hpq : p ≠ q := fun h => hne (String.toList_inj.mp (by rw [hy, hz, h]))
    rw [append_hyphen_lt_iff hp hq hpq]
  · simp [hcd]

theorem yearText_inj {y z : Int} : yearText y = yearText z ↔ y = z := by
  refine ⟨fun h => ?_, fun h => by rw [h]⟩
  have hlist := congrArg String.toList h
  obtain ⟨c, ds, hc, hm, hp, -⟩ := padded_eq_cons y.toNat
  obtain ⟨d, es, hd, hm', hp', -⟩ := padded_eq_cons z.toNat
  obtain ⟨hy₁, hy₂, hy⟩ | ⟨hy₁, hy⟩ | ⟨hy₁, hy⟩ := toList_yearText y <;>
    obtain ⟨hz₁, hz₂, hz⟩ | ⟨hz₁, hz⟩ | ⟨hz₁, hz⟩ := toList_yearText z <;> rw [hy, hz] at hlist
  · rw [padded_inj] at hlist
    omega
  · rw [hc, List.cons.injEq] at hlist
    exact absurd hlist.1 hm.ne'
  · rw [hc, List.cons.injEq] at hlist
    exact absurd hlist.1 hp.ne'
  · rw [hd, List.cons.injEq] at hlist
    exact absurd hlist.1 hm'.ne
  · rw [List.cons.injEq, padded_inj] at hlist
    omega
  · simp at hlist
  · rw [hd, List.cons.injEq] at hlist
    exact absurd hlist.1 hp'.ne
  · simp at hlist
  · rw [List.cons.injEq, padded_inj] at hlist
    omega

/-- Beside a year of four digits, a year is in its place exactly when it has no plus sign. -/
theorem yearText_lt_iff {y z : Int} (hz₁ : 0 ≤ z) (hz₂ : z ≤ 9999) :
    (yearText y < yearText z ↔ y < z) ↔ y ≤ 9999 := by
  obtain ⟨d, es, hd, hm, hp, -⟩ := padded_eq_cons z.toNat
  obtain ⟨_, _, hz⟩ | ⟨_, -⟩ | ⟨_, -⟩ := toList_yearText z <;> try omega
  rw [String.lt_iff_toList_lt, hz]
  obtain ⟨hy₁, hy₂, hy⟩ | ⟨hy₁, hy⟩ | ⟨hy₁, hy⟩ := toList_yearText y <;> rw [hy]
  · rw [padded_lt_iff (by omega) (by omega) (by omega)]
    omega
  · rw [hd, List.cons_lt_cons_iff]
    simp only [hm, true_or, true_iff]
    omega
  · rw [hd, List.cons_lt_cons_iff]
    simp only [hp, true_or, true_iff]
    omega

theorem microsText_lt_iff {t u : Instant} (ht : t.nanos < 1000000000) (hu : u.nanos < 1000000000) :
    t.microsText < u.microsText ↔ if t.year = u.year then t.Earlier u else yearText t.year < yearText u.year := by
  rw [String.lt_iff_toList_lt, toList_microsText ht, toList_microsText hu]
  split
  · rename_i hy
    rw [hy, append_lt_append_iff rfl, List.cons_lt_cons_iff, row_lt_iff (withinYear_fits ht) (withinYear_fits hu),
      withinYear_lt_iff hy]
    simp
  · rename_i hy
    exact yearText_append_lt_iff (fun h => hy (yearText_inj.mp h)) _ _

theorem le_iff {t u : Instant} :
    t.le u = true ↔ t.seconds < u.seconds ∨ t.seconds = u.seconds ∧ t.nanos ≤ u.nanos := by
  simp [le]

theorem le_iff_not_earlier (t u : Instant) : t.toMicros.le u.toMicros = true ↔ ¬ u.Earlier t := by
  simp only [le_iff, toMicros, Earlier]
  omega

/-- Two texts are in the order of time exactly when the years are. -/
theorem microsText_le_iff {t u : Instant} (ht : t.nanos < 1000000000) (hu : u.nanos < 1000000000) :
    (t.microsText ≤ u.microsText ↔ t.toMicros.le u.toMicros = true) ↔
      t.year = u.year ∨ (yearText t.year < yearText u.year ↔ t.year < u.year) := by
  rw [← not_lt, microsText_lt_iff hu ht, le_iff_not_earlier]
  by_cases hy : t.year = u.year
  · simp [hy]
  · have hne : yearText t.year ≠ yearText u.year := fun h => hy (yearText_inj.mp h)
    have hye : u.Earlier t ↔ u.year < t.year := by
      refine ⟨fun h => ?_, fun h => ?_⟩
      · have := year_le_of_earlier h
        omega
      · obtain he | he | he := earlier_or t u
        · have := year_le_of_earlier he
          omega
        · exact he
        · rw [← year_toMicros t, he] at h
          exact absurd h (lt_irrefl _)
    rw [if_neg (Ne.symm hy), hye, not_lt, not_lt, hne.le_iff_lt, Ne.le_iff_lt hy]
    simp [hy]

end Outreach.Instant
