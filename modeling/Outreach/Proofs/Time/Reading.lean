import Outreach.Proofs.Time.Text

/-! Instants read back from their texts: those in years of four digits, to the microsecond, and no others. -/
namespace Outreach.Instant
open Time Text

variable {t : Instant}

theorem number?_append {lo hi : Nat} {ds rest : List Char} (h : ∀ c ∈ ds, c.isDigit = true) (hlo : lo ≤ ds.length)
    (hhi : ds.length ≤ hi) (hrest : ds.length = hi ∨ ∀ c ∈ rest.head?, c.isDigit = false) :
    number? lo hi (ds ++ rest) = some (digitsValue ds, rest) := by
  have hstop : (rest.take (hi - ds.length)).takeWhile Char.isDigit = [] := by
    cases hk : hi - ds.length with
    | zero => simp
    | succ k =>
      cases rest with
      | nil => simp
      | cons c rest =>
        obtain hrest | hrest := hrest
        · omega
        · simp [hrest c (by simp)]
  have htake : ((ds ++ rest).take hi).takeWhile Char.isDigit = ds := by
    rw [List.take_append, List.take_of_length_le hhi, List.takeWhile_append_of_pos h, hstop, List.append_nil]
  simp only [number?, htake, if_pos hlo]
  rw [List.drop_left]

theorem number?_padded {w n : Nat} (hw : 0 < w) (h : n < 10 ^ w) (rest : List Char) :
    number? w w ((padded w n).toList ++ rest) = some (n, rest) := by
  have hl := length_padded hw h
  rw [number?_append (padded_isDigit w n) hl.ge hl.le (.inl hl), digitsValue_padded]

theorem nanos?_padded {n : Nat} (h : n < 10 ^ 6) :
    nanos? ('.' :: ((padded 6 n).toList ++ ['Z'])) = some (n * 1000, ['Z']) := by
  have hl := length_padded (by omega) h
  have hn := @number?_append 1 9 _ ['Z'] (padded_isDigit 6 n) (by omega) (by omega) (.inr (by simp [Char.isDigit]))
  simp [nanos?, hn, hl, Char.isDigit]

theorem number?_sign {c : Char} (h : c.isDigit = false) (rest : List Char) : number? 4 4 (c :: rest) = none := by
  simp [number?, h]

theorem literal?_cons (c : Char) (rest : List Char) : literal? c (c :: rest) = some rest := if_pos rfl

def clock? (year month day : Nat) (s : List Char) : Option Instant := do
  let (hour, s) ← number? 2 2 s
  let s ← literal? ':' s
  let (minute, s) ← number? 2 2 s
  let s ← literal? ':' s
  let (second, s) ← number? 2 2 s
  let (nanos, s) ← nanos? s
  let (offset, s) ← offset? (literal? ':') s
  if s.isEmpty then Written.instant? ⟨year, month, day, hour, minute, second, nanos, offset⟩ else none

theorem ofText?_eq (s : String) : ofText? s = (do
    let (year, s) ← number? 4 4 s.toList
    let s ← literal? '-' s
    let (month, s) ← number? 2 2 s
    let s ← literal? '-' s
    let (day, s) ← number? 2 2 s
    let s ← dateTimeSeparator? s
    clock? year month day s) := rfl

theorem clock?_of_row {y mo d h mi sec f : Nat}
    (hfits : Fits [(2, ':'), (2, ':'), (2, '.'), (6, 'Z')] [h, mi, sec, f]) :
    clock? y mo d (row [(2, ':'), (2, ':'), (2, '.'), (6, 'Z')] [h, mi, sec, f]) =
      Written.instant? ⟨y, mo, d, h, mi, sec, f * 1000, 0⟩ := by
  simp only [Fits, List.forall₂_cons, List.Forall₂.nil, and_true] at hfits
  obtain ⟨hh, hmi, hsec, hf⟩ := hfits
  have hZ : offset? (literal? ':') ['Z'] = some (0, []) := rfl
  simp only [row, clock?, number?_padded hh.1 hh.2, number?_padded hmi.1 hmi.2, number?_padded hsec.1 hsec.2,
    nanos?_padded hf.2, literal?_cons, hZ, Option.bind_eq_bind, Option.bind_some, List.isEmpty_nil, if_true]

theorem ofText?_of_row {s : String} {y mo d : Nat} {clock : List Nat} (hy : y < 10 ^ 4)
    (hfits : Fits rowLayout (mo :: d :: clock))
    (hs : s.toList = (padded 4 y).toList ++ '-' :: row rowLayout (mo :: d :: clock)) :
    ofText? s = clock? y mo d (row [(2, ':'), (2, ':'), (2, '.'), (6, 'Z')] clock) := by
  simp only [Fits, rowLayout, List.forall₂_cons] at hfits
  obtain ⟨hmo, hd, -⟩ := hfits
  have hT (r : List Char) : dateTimeSeparator? ('T' :: r) = some r := rfl
  simp only [row, rowLayout] at hs
  simp only [ofText?_eq, hs, number?_padded (by omega) hy, number?_padded hmo.1 hmo.2, number?_padded hd.1 hd.2,
    literal?_cons, hT, Option.bind_eq_bind, Option.bind_some]

/-- A date and a time of day within the range make up the instant they were taken from. -/
theorem instant?_withinYear (h : t.Ordinary) (hy : 0 ≤ t.year ∧ t.year ≤ 9999) :
    Written.instant? ⟨t.year.toNat, t.date.month, t.date.day, t.secondOfDay / 3600, t.secondOfDay / 60 % 60,
      t.secondOfDay % 60, t.nanos / 1000 * 1000, 0⟩ = some t.toMicros := by
  obtain ⟨hn, hmin, hmax⟩ := h
  obtain ⟨hm₁, hm₂, hd₁, hd₂⟩ := t.date_valid
  have hs := t.secondOfDay_lt
  have hdate : Date.of? t.year.toNat t.date.month t.date.day = some t.date := by
    rw [Int.toNat_of_nonneg hy.1]
    exact if_pos ⟨by rw [minYear]; omega, by rw [maxYear]; omega, hm₁, hm₂, hd₁, hd₂⟩
  have hdays : t.date.toDays = t.seconds.fdiv 86400 := Date.toDays_ofDays _
  have hclock : t.secondOfDay / 3600 * 3600 + t.secondOfDay / 60 % 60 * 60 + t.secondOfDay % 60 = t.secondOfDay := by
    omega
  have hsec : t.secondOfDay % 60 ≠ 60 := by omega
  have hsum : t.seconds.fdiv 86400 * 86400 + (t.secondOfDay : Int) - 0 = t.seconds := by
    have := t.seconds_eq
    omega
  simp only [Written.instant?, hdate, Option.bind_eq_bind, Option.bind_some, if_neg hsec, hdays, hclock, hsum,
    Nat.add_zero]
  rw [if_pos (by omega)]
  exact if_pos ⟨hmin, hmax⟩

theorem ofText?_microsText (h : t.Ordinary) :
    ofText? t.microsText = if 0 ≤ t.year ∧ t.year ≤ 9999 then some t.toMicros else none := by
  have htext := toList_microsText h.nanos
  obtain ⟨h₀, h₁, hy⟩ | ⟨h₀, hy⟩ | ⟨h₀, hy⟩ := toList_yearText t.year
  · have hfits := withinYear_fits h.nanos
    have hclock := ((List.forall₂_cons.mp hfits).2 |> List.forall₂_cons.mp).2
    rw [hy] at htext
    rw [if_pos ⟨h₀, h₁⟩, ofText?_of_row (by omega) hfits htext]
    refine (clock?_of_row hclock).trans ?_
    exact instant?_withinYear h ⟨h₀, h₁⟩
  · rw [if_neg (by omega), ofText?, htext, hy, List.cons_append, number?_sign (by decide)]
    rfl
  · rw [if_neg (by omega), ofText?, htext, hy, List.cons_append, number?_sign (by decide)]
    rfl

end Outreach.Instant
