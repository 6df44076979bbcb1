import Outreach.Proofs.Time.Reading

/-! Instants read back from the texts that documents give them: every instant of the range, to the nanosecond, in
whatever year and in a leap second too. -/
namespace Outreach.Instant
open Time Text

variable {t : Instant}

/-- An instant within the range; a leap second comes at the end of a minute. -/
structure Proper (t : Instant) : Prop where
  nanos : t.nanos < 1000000000 ∨ t.nanos < 2000000000 ∧ t.secondOfDay % 60 = 59
  min : minSeconds ≤ t.seconds
  max : t.seconds ≤ maxSeconds

theorem Proper.year (h : t.Proper) : minYear ≤ t.year ∧ t.year ≤ maxYear := by
  have hdays : t.date.toDays = t.seconds.fdiv 86400 := Date.toDays_ofDays _
  have hseconds := t.seconds_eq
  have hclock := t.secondOfDay_lt
  have hmin := h.min
  have hmax := h.max
  rw [minSeconds] at hmin
  rw [maxSeconds] at hmax
  constructor
  · by_contra hyear
    have hbefore : t.date.Before ⟨minYear, 1, 1⟩ := .inl (not_le.mp hyear)
    have hearlier := Date.toDays_lt_of_before t.date_valid ⟨by decide, by decide, by decide, by decide⟩ hbefore
    omega
  · by_contra hyear
    have hafter : Date.Before ⟨maxYear, 12, 31⟩ t.date := .inl (not_le.mp hyear)
    have hlater := Date.toDays_lt_of_before ⟨by decide, by decide, by decide, by decide⟩ t.date_valid hafter
    omega

def shownSecond (t : Instant) : Nat := t.secondOfDay % 60 + t.nanos / 1000000000

theorem shownSecond_le (h : t.Proper) : t.shownSecond ≤ 60 := by
  have hnanos := h.nanos
  rw [shownSecond]
  omega

/-- The parts of a text make up the instant that was written. -/
theorem instant?_shown (h : t.Proper) :
    Written.instant? ⟨t.year, t.date.month, t.date.day, t.secondOfDay / 3600, t.secondOfDay / 60 % 60, t.shownSecond,
      t.nanos % 1000000000, 0⟩ = some t := by
  obtain ⟨hy₁, hy₂⟩ := h.year
  obtain ⟨hm₁, hm₂, hd₁, hd₂⟩ := t.date_valid
  have hnanos := h.nanos
  have hclock := t.secondOfDay_lt
  have hseconds := t.seconds_eq
  have hdate : Date.of? t.year t.date.month t.date.day = some t.date := if_pos ⟨hy₁, hy₂, hm₁, hm₂, hd₁, hd₂⟩
  have hdays : t.date.toDays = t.seconds.fdiv 86400 := Date.toDays_ofDays _
  have hguard : t.secondOfDay / 3600 < 24 ∧ t.secondOfDay / 60 % 60 < 60 ∧ t.shownSecond ≤ 60 ∧
      (-86400 : Int) < 0 ∧ (0 : Int) < 86400 := ⟨by omega, by omega, shownSecond_le h, by decide, by decide⟩
  have hrange : inRange? t = some t := if_pos ⟨h.min, h.max⟩
  simp only [Written.instant?, hdate, Option.bind_eq_bind, Option.bind_some, if_pos hguard, hdays]
  have hsame {s : Int} {n : Nat} (hs : s = t.seconds) (hn : n = t.nanos) : (⟨s, n⟩ : Instant) = t := by rw [hs, hn]
  refine Eq.trans (congrArg inRange? ?_) hrange
  rw [shownSecond]
  by_cases hleap : t.secondOfDay % 60 + t.nanos / 1000000000 = 60
  · rw [if_pos hleap]
    exact hsame (by dsimp only; omega) (by dsimp only; omega)
  · rw [if_neg hleap]
    exact hsame (by dsimp only; omega) (by dsimp only; omega)

theorem not_isBlank_of_isDigit {c : Char} (h : c.isDigit = true) : isBlank c = false := by
  have hc := isDigit_iff.mp h
  simp only [isBlank, Bool.or_eq_false_iff, Bool.and_eq_false_iff, decide_eq_false_iff_not, beq_eq_false_iff_ne]
  omega

theorem trimStart_padded {w n : Nat} (hw : 0 < w) (h : n < 10 ^ w) (rest : List Char) :
    trimStart ((padded w n).toList ++ rest) = (padded w n).toList ++ rest := by
  have hdigits := padded_isDigit w n
  have hlen := length_padded hw h
  cases hlist : (padded w n).toList with
  | nil =>
    rw [hlist] at hlen
    simp at hlen
    omega
  | cons c ds =>
    have hc : isBlank c = false := not_isBlank_of_isDigit (hdigits c (by simp [hlist]))
    rw [List.cons_append, trimStart, List.dropWhile_cons_of_neg (by simp [hc])]

theorem loose?_padded {w n : Nat} (hw : 0 < w) (h : n < 10 ^ w) (rest : List Char) :
    loose? w ((padded w n).toList ++ rest) = some (n, rest) := by
  have hlen := length_padded hw h
  rw [loose?, trimStart_padded hw h, number?_append (padded_isDigit w n) (by omega) hlen.le (.inl hlen),
    digitsValue_padded]

theorem number?_untilHyphen (n : Nat) (rest : List Char) :
    number? 1 ((padded 4 n).toList ++ '-' :: rest).length ((padded 4 n).toList ++ '-' :: rest) =
      some (n, '-' :: rest) := by
  have hlen : 1 ≤ (padded 4 n).toList.length := by
    obtain ⟨c, ds, hlist, -⟩ := padded_eq_cons n
    rw [hlist]
    exact Nat.le_add_left 1 _
  rw [number?_append (padded_isDigit 4 n) hlen (by simp) (.inr (by simp [Char.isDigit])), digitsValue_padded]

theorem looseYear?_yearText (y : Int) (rest : List Char) :
    looseYear? ((yearText y).toList ++ '-' :: rest) = some (y, '-' :: rest) := by
  obtain ⟨h₀, h₁, hy⟩ | ⟨h₀, hy⟩ | ⟨h₀, hy⟩ := toList_yearText y
  · have hlen := length_padded (n := y.toNat) (by omega : 0 < 4) (by omega)
    have hnumber : number? 1 4 ((padded 4 y.toNat).toList ++ '-' :: rest) =
        some (digitsValue (padded 4 y.toNat).toList, '-' :: rest) :=
      number?_append (padded_isDigit 4 y.toNat) (by omega) hlen.le (.inl hlen)
    rw [hy, looseYear?, trimStart_padded (by omega) (by omega)]
    split
    · rename_i r heq
      obtain ⟨c, ds, hlist, hminus, -⟩ := padded_eq_cons y.toNat
      rw [hlist, List.cons_append, List.cons.injEq] at heq
      exact absurd heq.1 hminus.ne'
    · rename_i r heq
      obtain ⟨c, ds, hlist, -, hplus, -⟩ := padded_eq_cons y.toNat
      rw [hlist, List.cons_append, List.cons.injEq] at heq
      exact absurd heq.1 hplus.ne'
    · rw [hnumber, digitsValue_padded, Option.map_some]
      simp only [Int.toNat_of_nonneg h₀]
  · have hsign (r : List Char) : looseYear? ('-' :: r) = (number? 1 r.length r).map fun p => (-(p.1 : Int), p.2) := rfl
    have hneg : -(y.natAbs : Int) = y := by omega
    rw [hy, List.cons_append, hsign, number?_untilHyphen, Option.map_some]
    simp only [hneg]
  · have hsign (r : List Char) : looseYear? ('+' :: r) = (number? 1 r.length r).map fun p => ((p.1 : Int), p.2) := rfl
    have hpos : (y.natAbs : Int) = y := by omega
    rw [hy, List.cons_append, hsign, number?_untilHyphen, Option.map_some]
    simp only [hpos]

def fractionText (t : Instant) : String :=
  let n := t.nanos % 1000000000
  if n == 0 then ""
  else if n % 1000000 == 0 then "." ++ padded 3 (n / 1000000)
  else if n % 1000 == 0 then "." ++ padded 6 (n / 1000)
  else "." ++ padded 9 n

theorem nanos?_digits {w n : Nat} (hw : 0 < w) (hle : w ≤ 9) (h : n < 10 ^ w) :
    nanos? ('.' :: ((padded w n).toList ++ ['Z'])) = some (n * 10 ^ (9 - w), ['Z']) := by
  have hlen := length_padded hw h
  have hn := @number?_append 1 9 _ ['Z'] (padded_isDigit w n) (by omega) (by omega) (.inr (by simp [Char.isDigit]))
  simp [nanos?, hn, hlen, Char.isDigit]

theorem nanos?_fractionText (t : Instant) :
    nanos? (t.fractionText.toList ++ ['Z']) = some (t.nanos % 1000000000, ['Z']) := by
  have hn : t.nanos % 1000000000 < 1000000000 := Nat.mod_lt _ (by decide)
  have hpoint (s : String) : ("." ++ s).toList ++ ['Z'] = '.' :: (s.toList ++ ['Z']) := by simp
  simp only [fractionText, beq_iff_eq]
  split
  · rename_i h
    rw [h]
    rfl
  · split
    · rw [hpoint]
      refine (nanos?_digits (w := 3) (by decide) (by decide) (by omega)).trans ?_
      congr 2
      omega
    · split
      · rw [hpoint]
        refine (nanos?_digits (w := 6) (by decide) (by decide) (by omega)).trans ?_
        congr 2
        omega
      · rw [hpoint]
        refine (nanos?_digits (w := 9) (by decide) (by decide) hn).trans ?_
        congr 2
        omega

theorem toList_text (t : Instant) : t.text.toList = (yearText t.year).toList ++ '-' ::
    ((padded 2 t.date.month).toList ++ '-' :: ((padded 2 t.date.day).toList ++ 'T' ::
      ((padded 2 (t.secondOfDay / 3600)).toList ++ ':' :: ((padded 2 (t.secondOfDay / 60 % 60)).toList ++ ':' ::
        ((padded 2 t.shownSecond).toList ++ (t.fractionText.toList ++ ['Z'])))))) := by
  have htext : t.text = t.secondText ++ t.fractionText ++ "Z" := rfl
  have hmarks : "-".toList = ['-'] ∧ "T".toList = ['T'] ∧ ":".toList = [':'] ∧ "Z".toList = ['Z'] := by simp
  simp only [htext, secondText, year, shownSecond, String.toList_append, List.append_assoc, hmarks,
    List.cons_append, List.nil_append]

theorem ofLooseText?_text (h : t.Proper) : ofLooseText? t.text = some t := by
  obtain ⟨-, hm, -, hd⟩ := t.date_valid
  have hdays := daysInMonth_le t.date.year t.date.month
  have hclock := t.secondOfDay_lt
  have hsecond := shownSecond_le h
  have hhyphen (r : List Char) : literal? '-' (trimStart ('-' :: r)) = some r := rfl
  have hcolon (r : List Char) : literal? ':' (trimStart (':' :: r)) = some r := rfl
  have hT (r : List Char) : dateTimeSeparator? ('T' :: r) = some r := rfl
  have hZ : looseOffset? ['Z'] = some (0, []) := by decide
  have hend : (trimStart []).isEmpty = true := rfl
  simp only [ofLooseText?, toList_text, looseYear?_yearText, hhyphen, hcolon, hT, hZ, nanos?_fractionText,
    loose?_padded (w := 2) (n := t.date.month) (by decide) (by omega),
    loose?_padded (w := 2) (n := t.date.day) (by decide) (by omega),
    loose?_padded (w := 2) (n := t.secondOfDay / 3600) (by decide) (by omega),
    loose?_padded (w := 2) (n := t.secondOfDay / 60 % 60) (by decide) (by omega),
    loose?_padded (w := 2) (n := t.shownSecond) (by decide) (by omega), Option.bind_eq_bind, Option.bind_some, hend,
    if_true]
  exact instant?_shown h

end Outreach.Instant
