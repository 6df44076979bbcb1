import Mathlib
import Outreach.Engine.Conditions
import Outreach.Proofs.Time.Text

/-! Business hours. Clock times are compared as texts, which for hours and minutes of two digits each comes to the same as
comparing the minutes since midnight. -/
namespace Outreach
open Text

namespace Text
variable {a b : List Char} {m n : Nat}

structure IsPairOf (ds : List Char) (n : Nat) : Prop where
  length : ds.length = 2
  digits : ∀ c ∈ ds, c.isDigit = true
  value : digitsValue ds = n

theorem isPairOf_padded (h : n < 100) : IsPairOf (padded 2 n).toList n :=
  ⟨length_padded (by omega) h, padded_isDigit 2 n, digitsValue_padded 2 n⟩

theorem IsPairOf.lt_iff (ha : IsPairOf a m) (hb : IsPairOf b n) : a < b ↔ m < n := by
  rw [digits_lt_iff ha.digits hb.digits (ha.length.trans hb.length.symm), ha.value, hb.value]

theorem IsPairOf.eq_iff (ha : IsPairOf a m) (hb : IsPairOf b n) : a = b ↔ m = n := by
  rw [le_antisymm_iff, ← not_lt, ← not_lt, ha.lt_iff hb, hb.lt_iff ha]
  omega

end Text

inductive IsClockTime (s : String) : Nat → Prop where
  | of {hours minutes : List Char} {hour minute : Nat} (text : s.toList = hours ++ ':' :: minutes)
    (hours_eq : IsPairOf hours hour) (minutes_eq : IsPairOf minutes minute) (hour_le : hour ≤ 23) (minute_le : minute ≤ 59) :
    IsClockTime s (60 * hour + minute)

theorem IsClockTime.le_iff {s t : String} {m n : Nat} (hs : IsClockTime s m) (ht : IsClockTime t n) : s ≤ t ↔ m ≤ n := by
  obtain @⟨hours, minutes, hour, minute, hs, hhour, hminute, -, hle⟩ := hs
  obtain @⟨hours', minutes', hour', minute', ht, hhour', hminute', -, hle'⟩ := ht
  -- The hours have one length, so the order of the texts is that of the hours and, where these agree, of the minutes.
  have hlength : hours'.length = hours.length := hhour'.length.trans hhour.length.symm
  rw [← not_lt, String.lt_iff_toList_lt, hs, ht, Text.append_lt_append_iff hlength, List.cons_lt_cons_iff, hhour'.lt_iff hhour,
    hhour'.eq_iff hhour, hminute'.lt_iff hminute]
  simp only [lt_irrefl, false_or, true_and]
  omega

namespace Instant
open Time

def shownIn (t : Instant) (z : Zone) : Instant := { t with seconds := t.seconds + z.offsetAt t }

def weekday (t : Instant) : Weekday := .ofDays t.date.toDays

def hour (t : Instant) : Nat := t.secondOfDay / 3600

def minute (t : Instant) : Nat := t.secondOfDay / 60 % 60

def minutes (t : Instant) : Nat := 60 * t.hour + t.minute

theorem inZone_eq (t : Instant) (z : Zone) : t.inZone z = ⟨(t.shownIn z).weekday, (t.shownIn z).minutes⟩ := by
  have hminutes : (t.shownIn z).minutes = (t.shownIn z).secondOfDay / 60 := by
    rw [minutes, hour, minute]
    omega
  rw [hminutes, weekday, date, Date.toDays_ofDays, inZone, WallClock.mk.injEq]
  refine ⟨rfl, ?_⟩
  simp only [secondOfDay, shownIn]
  omega

theorem isClockTime_inZone (t : Instant) (z : Zone) : IsClockTime (t.inZone z).text (t.shownIn z).minutes := by
  have hday := (t.shownIn z).secondOfDay_lt
  have hhour : (t.shownIn z).hour ≤ 23 := by rw [hour]; omega
  have hminute : (t.shownIn z).minute ≤ 59 := by rw [minute]; omega
  refine .of ?_ (isPairOf_padded (by omega)) (isPairOf_padded (by omega)) hhour hminute
  have hdiv : (t.shownIn z).minutes / 60 = (t.shownIn z).hour := by rw [minutes]; omega
  have hmod : (t.shownIn z).minutes % 60 = (t.shownIn z).minute := by rw [minutes]; omega
  rw [inZone_eq, WallClock.text, hdiv, hmod]
  simp

end Instant

theorem withinHours_iff {days : List String} {opens closes : String} {o c : Nat} (hopens : IsClockTime opens o)
    (hcloses : IsClockTime closes c) (t : Instant) (z : Zone) : withinHours days opens closes (t.inZone z) = true ↔
      (∃ day ∈ days, sameIgnoringCase day (t.shownIn z).weekday.short = true) ∧ o ≤ (t.shownIn z).minutes ∧
        (t.shownIn z).minutes ≤ c := by
  have hnow := t.isClockTime_inZone z
  have hday : (t.inZone z).weekday = (t.shownIn z).weekday := by rw [t.inZone_eq z]
  rw [withinHours, Bool.and_eq_true, Bool.and_eq_true, List.any_eq_true, decide_eq_true_iff, decide_eq_true_iff,
    hopens.le_iff hnow, hnow.le_iff hcloses, hday, and_assoc]

/-- It is within business hours when one of the days is that of the local date, whatever the case of its letters, and the
local time in whole minutes lies between both times or is one of them; otherwise it is outside them. Nothing counts of a
moment but its local day of the week, hour and minute. -/
theorem business_hours (days : List String) (opens closes : String) :
    (∀ o c, IsClockTime opens o → IsClockTime closes c → ∀ contact (t : Instant) z,
      (Condition.businessHours .isWithin days opens closes).check contact (t.inZone z) = true ↔
        (∃ day ∈ days, sameIgnoringCase day (t.shownIn z).weekday.short = true) ∧ o ≤ (t.shownIn z).minutes ∧
          (t.shownIn z).minutes ≤ c) ∧
    (∀ contact now, (Condition.businessHours .isOutside days opens closes).check contact now =
      !(Condition.businessHours .isWithin days opens closes).check contact now) ∧
    ∀ (t t' : Instant) z z', (t.shownIn z).weekday = (t'.shownIn z').weekday → (t.shownIn z).hour = (t'.shownIn z').hour →
      (t.shownIn z).minute = (t'.shownIn z').minute → ∀ operator contact contact',
        (Condition.businessHours operator days opens closes).check contact (t.inZone z) =
          (Condition.businessHours operator days opens closes).check contact' (t'.inZone z') := by
  refine ⟨fun o c hopens hcloses contact t z => withinHours_iff hopens hcloses t z, fun _ _ => rfl, ?_⟩
  intro t t' z z' hweekday hhour hminute operator contact contact'
  have hsame : t.inZone z = t'.inZone z' := by
    rw [Instant.inZone_eq, Instant.inZone_eq, Instant.minutes, hweekday, hhour, hminute, Instant.minutes]
  rw [hsame]
  cases operator <;> rfl

/-- In the last minute, of a Monday evening. -/
theorem business_hours_monday : IsClockTime "09:00" 540 ∧ IsClockTime "18:00" 1080 ∧ ∀ contact,
    (Condition.businessHours .isWithin ["Tue", "MON"] "09:00" "18:00").check contact
      (Instant.inZone ⟨1717448459, 0⟩ ⟨"America/Sao_Paulo", -10800, []⟩) = true := by
  have hopens : IsClockTime "09:00" 540 :=
    @IsClockTime.of _ ['0', '9'] ['0', '0'] 9 0 rfl ⟨rfl, by simp, rfl⟩ ⟨rfl, by simp, rfl⟩ (by decide) (by decide)
  have hcloses : IsClockTime "18:00" 1080 :=
    @IsClockTime.of _ ['1', '8'] ['0', '0'] 18 0 rfl ⟨rfl, by simp, rfl⟩ ⟨rfl, by simp, rfl⟩ (by decide) (by decide)
  refine ⟨hopens, hcloses, fun contact => ((business_hours _ _ _).1 _ _ hopens hcloses contact _ _).mpr ?_⟩
  exact ⟨⟨"MON", by simp, by decide⟩, by decide, by decide⟩

end Outreach
