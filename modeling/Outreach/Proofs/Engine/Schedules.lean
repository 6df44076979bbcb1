import Mathlib
import Outreach.Engine.Schedule
import Outreach.Proofs.Text.Decimal
import Outreach.Proofs.Text.Plain
import Outreach.Proofs.Text.Words

/-! Schedule texts and the six fields that they name. A text of five or six fields is taken as it stands; phrases are
read without regard to the case of their letters, and since they have three words at most, neither shadows the other. -/
namespace Outreach.Schedule
open Text

inductive IntervalUnit where
  | second
  | minute
  | hour
  deriving DecidableEq

namespace IntervalUnit

def name : IntervalUnit → List Char
  | second => "second".toList
  | minute => "minute".toList
  | hour => "hour".toList

def place : IntervalUnit → Nat
  | second => 0
  | minute => 1
  | hour => 2

def fields (u : IntervalUnit) (field : List Char) : List (List Char) :=
  List.replicate u.place ['0'] ++ field :: List.replicate (5 - u.place) ['*']

end IntervalUnit

def IsCount (s : List Char) (n : Nat) : Prop :=
  0 < n ∧ ∃ ds, (s = ds ∨ s = '+' :: ds) ∧ ds ≠ [] ∧ (∀ c ∈ ds, c.isDigit = true) ∧ digitsValue ds = n ∧ n < 2 ^ 32

def onePhrases : List (String × IntervalUnit) :=
  [("every minute", .minute), ("minutely", .minute), ("every hour", .hour), ("hourly", .hour)]

inductive Phrase : List Char → List (List Char) → Prop where
  | one {phrase : String} {u : IntervalUnit} (h : (phrase, u) ∈ onePhrases) : Phrase phrase.toList (u.fields ['*'])
  | interval {rest count : List Char} {n : Nat} (u : IntervalUnit) (endings : Nat)
    (words : Spaced rest [count, u.name ++ List.replicate endings 's']) (number : IsCount count n) :
    Phrase ("every ".toList ++ rest) (u.fields ("*/".toList ++ Nat.toDigits 10 n))

def joined (fields : List (List Char)) : String := String.ofList ([' '].intercalate fields)

/-- What a schedule text stands for, white space around it left away: with a field of zero seconds before its five fields, its
six fields as they are, or the fields of its phrase in letters of any case. -/
inductive StandsFor (input : String) : String → Prop where
  | five {t : List Char} {fields : List (List Char)} (trimmed : IsTrimmed input.toList t)
    (words : Spaced t fields) (number : fields.length = 5) : StandsFor input (String.ofList ("0 ".toList ++ t))
  | six {t : List Char} {fields : List (List Char)} (trimmed : IsTrimmed input.toList t)
    (words : Spaced t fields) (number : fields.length = 6) : StandsFor input (String.ofList t)
  | phrase {t : List Char} {fields : List (List Char)} (trimmed : IsTrimmed input.toList t)
    (phrase : Phrase (t.map Char.toLower) fields) : StandsFor input (joined fields)

variable {s t low count unit stem : List Char} {fields : List (List Char)} {n : Nat} {input r : String}

section Reading

theorem after?_eq_some {start rest : List Char} : after? start s = some rest ↔ s = start ++ rest := by
  rw [after?, Option.ite_none_right_eq_some, List.isPrefixOf_iff_prefix]
  constructor
  · rintro ⟨⟨rest, rfl⟩, h⟩
    rw [List.drop_left] at h
    rw [Option.some.inj h]
  · rintro rfl
    exact ⟨List.prefix_append _ _, congrArg some List.drop_left⟩

theorem stem_eq_iff (h : stem.getLast? ≠ some 's') : (unit.reverse.dropWhile (· == 's')).reverse = stem ↔
    ∃ endings, unit = stem ++ List.replicate endings 's' := by
  constructor
  · rintro rfl
    refine ⟨(unit.reverse.takeWhile (· == 's')).length, List.reverse_inj.mp ?_⟩
    have hall : unit.reverse.takeWhile (· == 's') = List.replicate (unit.reverse.takeWhile (· == 's')).length 's' :=
      List.eq_replicate_iff.mpr ⟨rfl, fun c hc => by simpa using List.mem_takeWhile_imp hc⟩
    rw [List.reverse_append, List.reverse_reverse, List.reverse_replicate, ← hall, List.takeWhile_append_dropWhile]
  · rintro ⟨endings, rfl⟩
    rw [List.reverse_append, List.reverse_replicate, List.dropWhile_append_of_pos (by simp)]
    cases hstem : stem.reverse with
    | nil => exact (List.reverse_eq_nil_iff.mp hstem).symm
    | cons c r =>
      have hlast : stem.getLast? = some c := by rw [← List.head?_reverse, hstem]; rfl
      have hc : c ≠ 's' := fun hc => h (hlast.trans (congrArg some hc))
      rw [List.dropWhile_cons_of_neg (by simpa using hc), ← hstem, List.reverse_reverse]

theorem joined_fields (u : IntervalUnit) (n : Nat) : joined (u.fields ("*/".toList ++ Nat.toDigits 10 n)) =
    match u with
    | .second => "*/" ++ decimal n ++ " * * * * *"
    | .minute => "0 */" ++ decimal n ++ " * * * *"
    | .hour => "0 0 */" ++ decimal n ++ " * * *" := by
  rw [← String.toList_inj]
  cases u <;> simp [joined, IntervalUnit.fields, IntervalUnit.place, decimal, List.replicate_succ]

theorem everyInterval_eq_some : everyInterval n unit = some r ↔
    ∃ (u : IntervalUnit) (endings : Nat), unit = u.name ++ List.replicate endings 's' ∧
      r = joined (u.fields ("*/".toList ++ Nat.toDigits 10 n)) := by
  have hstem (u : IntervalUnit) : String.ofList (unit.reverse.dropWhile (· == 's')).reverse = String.ofList u.name ↔
      ∃ endings, unit = u.name ++ List.replicate endings 's' := by
    rw [String.ofList_inj, stem_eq_iff (by cases u <;> decide)]
  constructor
  · intro h
    unfold everyInterval at h
    dsimp only at h
    split_ifs at h with hsecond hminute hhour <;> cases h
    · obtain ⟨endings, hunit⟩ := (hstem .second).mp hsecond
      exact ⟨.second, endings, hunit, (joined_fields .second n).symm⟩
    · obtain ⟨endings, hunit⟩ := (hstem .minute).mp hminute
      exact ⟨.minute, endings, hunit, (joined_fields .minute n).symm⟩
    · obtain ⟨endings, hunit⟩ := (hstem .hour).mp hhour
      exact ⟨.hour, endings, hunit, (joined_fields .hour n).symm⟩
  · rintro ⟨u, endings, hunit, rfl⟩
    rw [joined_fields, everyInterval, (hstem u).mpr ⟨endings, hunit⟩]
    cases u <;> rfl

def spoken? (low : String) : Option String :=
  if low = "every minute" ∨ low = "minutely" then some "0 * * * * *"
  else if low = "every hour" ∨ low = "hourly" then some "0 0 * * * *"
  else
    match (after? "every ".toList low.toList).map words with
    | some [count, unit] => ((natural? (Nat.pow 2 32) count).filter (0 < ·)).bind (everyInterval · unit)
    | _ => none

theorem toOption_normalize (input : String) : (normalize input).toOption =
    if (words (trim input).toList).length = 5 then some ("0 " ++ trim input)
    else if (words (trim input).toList).length = 6 then some (trim input)
    else spoken? (lower (trim input)) := by
  unfold normalize spoken?
  dsimp only
  split
  · rename_i h
    rw [if_pos h]
    rfl
  · rename_i h
    rw [if_neg (by omega), if_pos h]
    rfl
  · rename_i hfive hsix
    rw [if_neg hfive, if_neg hsix]
    split_ifs
    · rfl
    · rfl
    · generalize (after? "every ".toList (lower (trim input)).toList).map words = parts
      obtain _ | _ | ⟨count, _ | ⟨unit, _ | _⟩⟩ := parts
      case some.cons.cons.nil =>
        dsimp only
        split
        · rename_i hcount
          rw [hcount]
          rfl
        · rename_i hcount
          rw [hcount]
          rfl
        · rename_i n hzero hcount
          have hpositive : 0 < n := Nat.pos_of_ne_zero (by rintro rfl; exact hzero rfl)
          rw [hcount, Option.filter_some_pos (by simpa using hpositive), Option.bind_some]
          cases everyInterval n unit <;> rfl
      all_goals rfl

theorem spaced_every {rest : List Char} {ws : List (List Char)} (h : Spaced rest ws) :
    Spaced ("every ".toList ++ rest) ("every".toList :: ws) := by
  have hevery : "every ".toList ++ rest = "every".toList ++ ' ' :: rest := by simp
  rw [hevery]
  exact .word (by decide) (by simp [isBlank]) (.blank rfl h)

theorem length_words_every {rest : List Char} (h : Spaced rest [count, unit]) :
    (words ("every ".toList ++ rest)).length = 3 := by
  rw [spaced_iff.mp (spaced_every h)]
  rfl

theorem length_words_one {phrase : String} {u : IntervalUnit} (h : (phrase, u) ∈ onePhrases) :
    (words phrase.toList).length < 3 := by
  have hall : ∀ p ∈ onePhrases, (words p.1.toList).length < 3 := by decide
  exact hall (phrase, u) h

/-- None of the phrases is long enough for a cron text. -/
theorem Phrase.length_words (h : Phrase low fields) : (words low).length ≤ 3 := by
  cases h with
  | one h => exact (length_words_one h).le
  | interval u endings hwords _ => exact (length_words_every hwords).le

theorem spoken?_of_phrase {low : String} (h : Phrase low.toList fields) : spoken? low = some (joined fields) := by
  generalize hlow : low.toList = s at h
  cases h with
  | @one phrase u h =>
    obtain rfl := String.toList_inj.mp hlow
    exact (by decide : ∀ p ∈ onePhrases, spoken? p.1 = some (joined (p.2.fields ['*']))) (low, u) h
  | @interval rest count n u endings hwords number =>
    have hcount : natural? (Nat.pow 2 32) count = some n := natural?_eq_some.mpr number.2
    -- A phrase of three words, and hence none of the others, which are tried first.
    have hother {u : IntervalUnit} : (low, u) ∉ onePhrases := fun h => by
      have hshort := length_words_one h
      rw [hlow, length_words_every hwords] at hshort
      exact hshort.false
    have hminute : ¬ (low = "every minute" ∨ low = "minutely") := by simpa [onePhrases] using @hother .minute
    have hhour : ¬ (low = "every hour" ∨ low = "hourly") := by simpa [onePhrases] using @hother .hour
    rw [spoken?, if_neg hminute, if_neg hhour, hlow, after?_eq_some.mpr rfl, Option.map_some, spaced_iff.mp hwords]
    dsimp only
    rw [hcount, Option.filter_some_pos (by simpa using number.1), Option.bind_some]
    exact everyInterval_eq_some.mpr ⟨u, endings, rfl, rfl⟩

theorem spoken?_eq_some {low : String} : spoken? low = some r ↔ ∃ fields, Phrase low.toList fields ∧ r = joined fields := by
  have hone (u : IntervalUnit) (hlow : (low, u) ∈ onePhrases) (h : some (joined (u.fields ['*'])) = some r) :
      ∃ fields, Phrase low.toList fields ∧ r = joined fields := ⟨_, .one hlow, (Option.some.inj h).symm⟩
  constructor
  · intro h
    unfold spoken? at h
    split_ifs at h with hminute hhour
    · exact hone .minute (by simpa [onePhrases] using hminute) h
    · exact hone .hour (by simpa [onePhrases] using hhour) h
    · split at h
      · rename_i count unit hparts
        obtain ⟨rest, hrest, hwords⟩ := Option.map_eq_some_iff.mp hparts
        obtain ⟨n, hcount, hevery⟩ := Option.bind_eq_some_iff.mp h
        obtain ⟨hnatural, hpositive⟩ := Option.filter_eq_some_iff.mp hcount
        obtain ⟨u, endings, rfl, rfl⟩ := everyInterval_eq_some.mp hevery
        have hnumber : IsCount count n := ⟨by simpa using hpositive, natural?_eq_some.mp hnatural⟩
        rw [after?_eq_some.mp hrest]
        exact ⟨_, .interval u endings (spaced_iff.mpr hwords) hnumber, rfl⟩
      · cases h
  · rintro ⟨fields, hphrase, rfl⟩
    exact spoken?_of_phrase hphrase

theorem IntervalUnit.length_fields (u : IntervalUnit) (field : List Char) : (u.fields field).length = 6 := by
  cases u <;> rfl

theorem IntervalUnit.isWord_fields (u : IntervalUnit) {field : List Char} (h : IsWord field) :
    ∀ w ∈ u.fields field, IsWord w := by
  have hzero : IsWord ['0'] := by decide
  have hstar : IsWord ['*'] := by decide
  refine List.forall_mem_append.mpr ⟨fun w hw => ?_, List.forall_mem_cons.mpr ⟨h, fun w hw => ?_⟩⟩
  · rwa [List.eq_of_mem_replicate hw]
  · rwa [List.eq_of_mem_replicate hw]

theorem isBlank_of_isDigit {c : Char} (h : c.isDigit = true) : isBlank c = false := by
  have := isDigit_iff.mp h
  simp [isBlank]
  omega

theorem Phrase.fields_eq (h : Phrase low fields) :
    ∃ (u : IntervalUnit) (field : List Char), IsWord field ∧ fields = u.fields field := by
  cases h with
  | @one _ u _ => exact ⟨u, ['*'], by decide, rfl⟩
  | @interval _ _ n u _ _ _ =>
    have hstep : IsWord "*/".toList := by decide
    refine ⟨u, _, ⟨by simp, List.forall_mem_append.mpr ⟨hstep.solid, fun c hc => ?_⟩⟩, rfl⟩
    exact isBlank_of_isDigit (toDigits_isDigit n c hc)

theorem isPlain_of_isDigit {c : Char} (h : c.isDigit = true) : IsPlain c := by
  have := isDigit_iff.mp h
  refine .inl ⟨by omega, ?_⟩
  rintro rfl
  exact absurd h (by decide)

theorem IsCount.isPlain (h : IsCount count n) : ∀ c ∈ count, IsPlain c := by
  obtain ⟨-, ds, rfl | rfl, -, hdigits, -⟩ := h
  · exact fun c hc => isPlain_of_isDigit (hdigits c hc)
  · exact List.forall_mem_cons.mpr ⟨by decide, fun c hc => isPlain_of_isDigit (hdigits c hc)⟩

theorem Phrase.isPlain (h : Phrase low fields) : ∀ c ∈ low, IsPlain c := by
  cases h with
  | @one phrase u h =>
    exact forall_isPlain ((by decide : ∀ p ∈ onePhrases, p.1.toList.all (IsPlain ·) = true) (phrase, u) h)
  | interval u endings hwords number =>
    have hunit : ∀ c ∈ u.name ++ List.replicate endings 's', IsPlain c := by
      refine List.forall_mem_append.mpr ⟨forall_isPlain (by cases u <;> decide), fun c hc => ?_⟩
      rw [List.eq_of_mem_replicate hc]
      decide
    refine List.forall_mem_append.mpr ⟨forall_isPlain (by decide), fun c hc => ?_⟩
    obtain hblank | ⟨w, hw, hcw⟩ := hwords.mem c hc
    · exact .inr hblank
    · obtain rfl | rfl : w = _ ∨ w = _ := by simpa using hw
      · exact number.isPlain c hcw
      · exact hunit c hcw

/-- Whether a text is a phrase in small letters shows in its ASCII letters. -/
theorem phrase_lower_iff {text : String} :
    Phrase (lower text).toList fields ↔ Phrase (text.toList.map Char.toLower) fields := by
  constructor
  · intro h
    rwa [(toList_lower_eq_iff h.isPlain).mp rfl]
  · intro h
    rwa [(toList_lower_eq_iff h.isPlain).mpr rfl]

theorem length_words_map (s : List Char) : (words (s.map Char.toLower)).length = (words s).length := by
  have hblank (c : Char) : isBlank c.toLower = isBlank c := same_toLower isBlank (by decide) c
  rw [spaced_iff.mp ((spaced_words s).map hblank), List.length_map]

theorem normalize_eq_ok_iff : normalize input = .ok r ↔ StandsFor input r := by
  have htrimmed := isTrimmed_trimChars input.toList
  have hok : normalize input = .ok r ↔ (normalize input).toOption = some r := by
    cases normalize input <;> simp [Except.toOption]
  have hzero : "0 " ++ trim input = String.ofList ("0 ".toList ++ trimChars input.toList) := by
    rw [String.ofList_append, String.ofList_toList, trim]
  have hspoken : spoken? (lower (trim input)) = some r ↔
      ∃ fields, Phrase ((trimChars input.toList).map Char.toLower) fields ∧ r = joined fields := by
    simp only [spoken?_eq_some, phrase_lower_iff, trim, String.toList_ofList]
  rw [hok, toOption_normalize, hzero, trim, String.toList_ofList]
  constructor
  · intro h
    split_ifs at h with hfive hsix
    · cases h
      exact .five htrimmed (spaced_words _) hfive
    · cases h
      exact .six htrimmed (spaced_words _) hsix
    · obtain ⟨fields, hphrase, rfl⟩ := hspoken.mp h
      exact .phrase htrimmed hphrase
  · intro h
    cases h with
    | five trimmed hwords number =>
      obtain rfl := isTrimmed_iff.mp trimmed
      rw [if_pos (spaced_iff.mp hwords ▸ number)]
    | six trimmed hwords number =>
      obtain rfl := isTrimmed_iff.mp trimmed
      obtain rfl := spaced_iff.mp hwords
      rw [if_neg (by omega), if_pos number]
    | phrase trimmed hphrase =>
      obtain rfl := isTrimmed_iff.mp trimmed
      have hlength := hphrase.length_words
      rw [length_words_map] at hlength
      rw [if_neg (by omega), if_neg (by omega)]
      exact hspoken.mpr ⟨_, hphrase, rfl⟩

end Reading

section Results

def IsSixFields (s : List Char) : Prop := IsTrimmed s s ∧ ∃ fields, Spaced s fields ∧ fields.length = 6

theorem isSixFields_joined (h : Phrase low fields) : IsSixFields (joined fields).toList := by
  obtain ⟨u, field, hfield, rfl⟩ := h.fields_eq
  have hwords := u.isWord_fields hfield
  rw [joined, String.toList_ofList]
  exact ⟨isTrimmed_intercalate hwords, _, spaced_intercalate hwords, u.length_fields field⟩

theorem isSixFields_five (htrimmed : IsTrimmed t t) (hwords : Spaced t fields) (hnumber : fields.length = 5) :
    IsSixFields ("0 ".toList ++ t) := by
  have hzero : "0 ".toList ++ t = ['0'] ++ ' ' :: t := by simp
  have hne : t ≠ [] := by
    rintro rfl
    obtain rfl := hwords.unique .nil
    cases hnumber
  obtain ⟨-, -, -, -, -, -, hlast⟩ := htrimmed
  refine ⟨isTrimmed_self (by simp [isBlank]) ?_, ['0'] :: fields, ?_, by simpa using hnumber⟩
  · rwa [List.getLast?_append_of_ne_nil _ hne]
  · rw [hzero]
    exact .word (by decide) (by simp [isBlank]) (.blank rfl hwords)

theorem StandsFor.isSixFields (h : StandsFor input r) : IsSixFields r.toList := by
  cases h with
  | five trimmed hwords number =>
    rw [String.toList_ofList]
    exact isSixFields_five trimmed.self hwords number
  | six trimmed hwords number =>
    rw [String.toList_ofList]
    exact ⟨trimmed.self, _, hwords, number⟩
  | phrase trimmed hphrase => exact isSixFields_joined hphrase

theorem standsFor_self (h : IsSixFields r.toList) : StandsFor r r := by
  obtain ⟨htrimmed, fields, hwords, hnumber⟩ := h
  simpa using StandsFor.six htrimmed hwords hnumber

theorem StandsFor.of_trimmed {other : String} (hother : ∀ t, IsTrimmed input.toList t → IsTrimmed other.toList t)
    (h : StandsFor input r) : StandsFor other r := by
  cases h with
  | five trimmed words number => exact .five (hother _ trimmed) words number
  | six trimmed words number => exact .six (hother _ trimmed) words number
  | phrase trimmed phrase => exact .phrase (hother _ trimmed) phrase

theorem standsFor_surrounded {before after : List Char} (hbefore : ∀ c ∈ before, isBlank c = true)
    (hafter : ∀ c ∈ after, isBlank c = true) :
    StandsFor (String.ofList (before ++ (input.toList ++ after))) r ↔ StandsFor input r := by
  have htrimmed (t : List Char) :
      IsTrimmed (String.ofList (before ++ (input.toList ++ after))).toList t ↔ IsTrimmed input.toList t := by
    rw [String.toList_ofList, isTrimmed_iff, isTrimmed_iff, trimChars_surrounded hbefore hafter]
  exact ⟨.of_trimmed fun t => (htrimmed t).mp, .of_trimmed fun t => (htrimmed t).mpr⟩

/-- A schedule text has the cron text that it stands for, if any, which has six fields and stands for itself. White space
around a schedule text makes no difference to it. -/
theorem normalize_names (input : String) :
    (∀ r, normalize input = .ok r ↔ StandsFor input r) ∧
    (∀ r, normalize input = .ok r → IsSixFields r.toList ∧ normalize r = .ok r) ∧
    ∀ before after : List Char, (∀ c ∈ before, isBlank c = true) → (∀ c ∈ after, isBlank c = true) →
      ∀ r, normalize (String.ofList (before ++ (input.toList ++ after))) = .ok r ↔ normalize input = .ok r := by
  refine ⟨fun r => normalize_eq_ok_iff, fun r h => ?_, fun before after hbefore hafter r => ?_⟩
  · have hsix := (normalize_eq_ok_iff.mp h).isSixFields
    exact ⟨hsix, normalize_eq_ok_iff.mpr (standsFor_self hsix)⟩
  · rw [normalize_eq_ok_iff, normalize_eq_ok_iff, standsFor_surrounded hbefore hafter]

theorem normalize_names_hours : StandsFor " Every +05  HOURS" "0 0 */5 * * *" ∧
    normalize "0 0 */5 * * *" = .ok "0 0 */5 * * *" := by
  have h : normalize " Every +05  HOURS" = .ok "0 0 */5 * * *" := rfl
  obtain ⟨hnames, hstable, -⟩ := normalize_names " Every +05  HOURS"
  exact ⟨(hnames _).mp h, (hstable _ h).2⟩

end Results
end Outreach.Schedule
