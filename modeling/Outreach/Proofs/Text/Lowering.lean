import Mathlib
import Outreach.Engine.Conditions
import Outreach.Engine.Matching

/-! Lower-casing a text and its parts. Every character is lower-cased by itself, except for a capital sigma, whose form
depends on what stands around it. So a value that a text contains is found in it wherever it stands, if around each
capital sigma of the value there is enough to settle its form, and otherwise not everywhere. -/
namespace Outreach
namespace Text
variable {before after before' after' s t v : List Char} {c : Char}

theorem occursIn_iff {needle : List Char} : occursIn needle s = true ↔ needle <:+: s := by
  induction s with
  | nil => rw [occursIn, List.isEmpty_iff, List.infix_nil]
  | cons c r ih => rw [occursIn, Bool.or_eq_true, List.isPrefixOf_iff_prefix, ih, List.infix_cons_iff]

theorem contains_iff {text needle : String} : contains text needle = true ↔ needle.toList <:+: text.toList := occursIn_iff

def capitalSigma : Char := 'Σ'

theorem toNat_capitalSigma_iff : (c.toNat == 0x3A3) = true ↔ c = capitalSigma := by
  rw [beq_iff_eq]
  exact ⟨fun h => Char.toNat_inj.mp h, fun h => h ▸ rfl⟩

def endsWord (before after : List Char) : Bool := meetsLetter before && !meetsLetter after

def lowerHere (before : List Char) (c : Char) (after : List Char) : List Char :=
  if c = capitalSigma then [if endsWord before after then 'ς' else 'σ'] else lowerChar c

def lowerBetween (before : List Char) : List Char → List Char → List Char
  | [], _ => []
  | c :: r, after => lowerHere before c (r ++ after) ++ lowerBetween (c :: before) r after

theorem lowerAfter_cons (before : List Char) (c : Char) (r : List Char) :
    lowerAfter before (c :: r) = lowerHere before c r ++ lowerAfter (c :: before) r := by
  rw [lowerAfter, lowerHere]
  congr 1
  by_cases hc : c = capitalSigma
  · rw [if_pos (toNat_capitalSigma_iff.mpr hc), if_pos hc, endsWord]
    split <;> rfl
  · rw [if_neg (mt toNat_capitalSigma_iff.mp hc), if_neg hc]

theorem lowerAfter_append (before s after : List Char) :
    lowerAfter before (s ++ after) = lowerBetween before s after ++ lowerAfter (s.reverse ++ before) after := by
  induction s generalizing before with
  | nil => rfl
  | cons c r ih =>
    rw [List.cons_append, lowerAfter_cons, ih, lowerBetween, List.append_assoc, List.reverse_cons, List.append_assoc,
      List.singleton_append]

theorem lowerBetween_nil (before s : List Char) : lowerBetween before s [] = lowerAfter before s := by
  have h := lowerAfter_append before s []
  rw [List.append_nil, lowerAfter, List.append_nil] at h
  exact h.symm

theorem lowerChar_ascii (h : c.toNat < 128) : lowerChar c = [c.toLower] := by rw [lowerChar, if_pos h]

theorem lowerAfter_ascii (h : ∀ c ∈ s, c.toNat < 128) (before : List Char) : lowerAfter before s = s.map Char.toLower := by
  induction s generalizing before with
  | nil => rfl
  | cons c r ih =>
    obtain ⟨hc, hr⟩ := List.forall_mem_cons.mp h
    have hsigma : c ≠ capitalSigma := by
      rintro rfl
      exact absurd hc (by decide)
    rw [lowerAfter_cons, lowerHere, if_neg hsigma, lowerChar_ascii hc, ih hr, List.map_cons, List.singleton_append]

theorem toList_lower (text : String) : (lower text).toList = lowerAfter [] text.toList := by
  unfold lower
  dsimp only
  split
  · rename_i h
    rw [String.toList_ofList, lowerAfter_ascii]
    simpa using h
  · exact String.toList_ofList

/-- A text whose part is lower-cased as it is by itself. -/
theorem toList_lower_append (p v s : String) : (lower (p ++ v ++ s)).toList =
    lowerBetween [] p.toList (v.toList ++ s.toList) ++
      (lowerBetween p.toList.reverse v.toList s.toList ++ lowerAfter (v.toList.reverse ++ p.toList.reverse) s.toList) := by
  rw [toList_lower, String.toList_append, String.toList_append, List.append_assoc, lowerAfter_append, lowerAfter_append,
    List.append_nil]

section Forms

theorem length_lowerHere (before before' after after' : List Char) (c : Char) :
    (lowerHere before c after).length = (lowerHere before' c after').length := by
  unfold lowerHere
  split <;> rfl

theorem length_lowerBetween (before before' s after after' : List Char) :
    (lowerBetween before s after).length = (lowerBetween before' s after').length := by
  induction s generalizing before before' with
  | nil => rfl
  | cons c r ih => rw [lowerBetween, lowerBetween, List.length_append, List.length_append, length_lowerHere, ih]

theorem lowerHere_eq_iff : lowerHere before c after = lowerHere before' c after' ↔
    (c = capitalSigma → endsWord before after = endsWord before' after') := by
  unfold lowerHere
  by_cases hc : c = capitalSigma
  · rw [if_pos hc, if_pos hc]
    cases endsWord before after <;> cases endsWord before' after' <;> simp [hc]
  · simp [hc]

def SameForms (v before after before' after' : List Char) : Prop :=
  ∀ i < v.length, v[i]? = some capitalSigma →
    endsWord ((v.take i).reverse ++ before) (v.drop (i + 1) ++ after) =
      endsWord ((v.take i).reverse ++ before') (v.drop (i + 1) ++ after')

theorem sameForms_cons : SameForms (c :: s) before after before' after' ↔
    (c = capitalSigma → endsWord before (s ++ after) = endsWord before' (s ++ after')) ∧
      SameForms s (c :: before) after (c :: before') after' := by
  unfold SameForms
  rw [List.length_cons, Nat.forall_lt_succ_left]
  simp

/-- Nothing else about the places matters; by induction on the part. -/
theorem lowerBetween_eq_iff :
    lowerBetween before v after = lowerBetween before' v after' ↔ SameForms v before after before' after' := by
  induction v generalizing before before' with
  | nil => exact iff_of_true rfl nofun
  | cons c r ih =>
    rw [sameForms_cons, ← ih, ← lowerHere_eq_iff, lowerBetween, lowerBetween]
    exact ⟨fun h => List.append_inj h (length_lowerHere _ _ _ _ c), fun ⟨hhere, hrest⟩ => by rw [hhere, hrest]⟩

end Forms

section Settled

def Decides (s : List Char) : Prop := ∃ c ∈ s, isCaseIgnorable c = false

/-- What stands around a capital sigma settles its form: a letter follows, or none precedes, or both sides decide. -/
def Settled (before after : List Char) : Prop :=
  meetsLetter after = true ∨ Decides before ∧ (meetsLetter before = false ∨ Decides after)

def Steady (v : List Char) : Prop :=
  ∀ i < v.length, v[i]? = some capitalSigma → Settled (v.take i).reverse (v.drop (i + 1))

theorem meetsLetter_append_of_decides (h : Decides s) (t : List Char) : meetsLetter (s ++ t) = meetsLetter s := by
  have hne : s.dropWhile isCaseIgnorable ≠ [] := by
    obtain ⟨c, hc, hstops⟩ := h
    intro hnil
    rw [List.dropWhile_eq_nil_iff.mp hnil c hc] at hstops
    cases hstops
  unfold meetsLetter
  rw [List.dropWhile_append, if_neg (by simpa using hne)]
  obtain ⟨c, r, hcons⟩ := List.exists_cons_of_ne_nil hne
  rw [hcons, List.cons_append]

theorem meetsLetter_append_of_not_decides (h : ¬ Decides s) (t : List Char) : meetsLetter (s ++ t) = meetsLetter t := by
  have hall : ∀ c ∈ s, isCaseIgnorable c = true := fun c hc => by
    by_contra hstops
    exact h ⟨c, hc, Bool.eq_false_iff.mpr hstops⟩
  unfold meetsLetter
  rw [List.dropWhile_append_of_pos hall]

theorem meetsLetter_of_not_decides (h : ¬ Decides s) : meetsLetter s = false := by
  have happend := meetsLetter_append_of_not_decides h []
  rwa [List.append_nil] at happend

theorem decides_of_meetsLetter (h : meetsLetter s = true) : Decides s := by
  by_contra hnot
  rw [meetsLetter_of_not_decides hnot] at h
  cases h

/-- A form that is settled stays the same whatever is put around. -/
theorem Settled.endsWord (h : Settled before after) (more rest : List Char) :
    endsWord (before ++ more) (after ++ rest) = endsWord before after := by
  unfold Text.endsWord
  obtain hletter | ⟨hbefore, hnone | hafter⟩ := h
  · rw [meetsLetter_append_of_decides (decides_of_meetsLetter hletter), hletter, Bool.not_true, Bool.and_false, Bool.and_false]
  · rw [meetsLetter_append_of_decides hbefore, hnone, Bool.false_and, Bool.false_and]
  · rw [meetsLetter_append_of_decides hbefore, meetsLetter_append_of_decides hafter]

structure IsSmall (c : Char) : Prop where
  lowers : lowerChar c = [c]
  letter : meetsLetter [c] = true
  ne_sigma : c ≠ capitalSigma

/-- One that is not settled changes with a letter before or after the value. -/
theorem endsWord_changes (h : ¬ Settled before after) (hc : meetsLetter [c] = true) :
    endsWord (before ++ [c]) after ≠ endsWord before after ∨ endsWord before (after ++ [c]) ≠ endsWord before after := by
  obtain ⟨hletter, hopen⟩ := not_or.mp h
  have hfollows : meetsLetter after = false := Bool.eq_false_iff.mpr hletter
  unfold endsWord
  by_cases hbefore : Decides before
  · obtain ⟨hprecedes, hafter⟩ := not_or.mp (not_and.mp hopen hbefore)
    rw [meetsLetter_append_of_not_decides hafter, hc, hfollows, Bool.eq_true_of_not_eq_false hprecedes]
    exact .inr (by decide)
  · rw [meetsLetter_append_of_not_decides hbefore, hc, hfollows, meetsLetter_of_not_decides hbefore]
    exact .inl (by decide)

theorem Steady.sameForms (h : Steady v) (before after : List Char) : SameForms v before after [] [] := by
  intro i hi hsigma
  rw [List.append_nil, List.append_nil]
  exact (h i hi hsigma).endsWord before after

theorem exists_small (first last : Option Char) : ∃ c, IsSmall c ∧ first ≠ some c ∧ last ≠ some c := by
  have hsmall : ∀ c ∈ ['a', 'b', 'c'], IsSmall c := by
    simp only [List.forall_mem_cons]
    refine ⟨⟨?_, ?_, ?_⟩, ⟨?_, ?_, ?_⟩, ⟨?_, ?_, ?_⟩, List.forall_mem_nil _⟩ <;> decide +kernel
  -- Two letters cannot be all three.
  by_contra hnone
  have htaken : ∀ c ∈ ['a', 'b', 'c'], first = some c ∨ last = some c := fun c hc => by
    by_contra hfree
    exact hnone ⟨c, hsmall c hc, not_or.mp hfree⟩
  simp only [List.forall_mem_cons] at htaken
  obtain ⟨ha, hb, hc, -⟩ := htaken
  grind

theorem IsSmall.lowerHere (h : IsSmall c) (before after : List Char) : lowerHere before c after = [c] :=
  (if_neg h.ne_sigma).trans h.lowers

theorem not_infix_cons (hlength : s.length = t.length) (hne : t ≠ s) (hfirst : s.head? ≠ some c) : ¬ s <:+: c :: t := by
  rw [List.infix_cons_iff]
  rintro (⟨rest, hstart⟩ | hinside)
  · cases s with
    | nil => exact hne (List.length_eq_zero_iff.mp hlength.symm)
    | cons x r => exact hfirst (congrArg some (List.cons.inj hstart).1)
  · exact hne (hinside.eq_of_length hlength).symm

theorem not_infix_concat (hlength : s.length = t.length) (hne : t ≠ s) (hlast : s.getLast? ≠ some c) :
    ¬ s <:+: t ++ [c] := by
  rw [← List.reverse_infix, List.reverse_append, List.reverse_singleton, List.singleton_append]
  refine not_infix_cons (by simpa using hlength) (mt List.reverse_inj.mp hne) ?_
  rwa [List.head?_reverse]

/-- Around a value that is not steady a letter can be put so that it is not found. -/
theorem exists_hiding (h : ¬ Steady v) : ∃ p s, ¬ lowerAfter [] v <:+: lowerAfter [] (p ++ (v ++ s)) := by
  obtain ⟨c, hsmall, hfirst, hlast⟩ := exists_small (lowerAfter [] v).head? (lowerAfter [] v).getLast?
  obtain ⟨i, hi, hsigma, hsettled⟩ : ∃ i < v.length, v[i]? = some capitalSigma ∧
      ¬ Settled (v.take i).reverse (v.drop (i + 1)) := by
    simpa [Steady] using h
  have hdiffers {before after : List Char}
      (hchanges : endsWord ((v.take i).reverse ++ before) (v.drop (i + 1) ++ after) ≠
        endsWord (v.take i).reverse (v.drop (i + 1))) : lowerBetween before v after ≠ lowerAfter [] v := by
    rw [← lowerBetween_nil, Ne, lowerBetween_eq_iff]
    intro hsame
    have hform := hsame i hi hsigma
    rw [List.append_nil, List.append_nil] at hform
    exact hchanges hform
  have hlength (before after : List Char) : (lowerAfter [] v).length = (lowerBetween before v after).length := by
    rw [← lowerBetween_nil]
    exact length_lowerBetween _ _ _ _ _
  obtain hbefore | hafter := endsWord_changes hsettled hsmall.letter
  · refine ⟨[c], [], ?_⟩
    rw [List.append_nil, List.singleton_append, lowerAfter_cons, hsmall.lowerHere, List.singleton_append, ← lowerBetween_nil [c]]
    exact not_infix_cons (hlength _ _) (hdiffers (by rwa [List.append_nil])) hfirst
  · refine ⟨[], [c], ?_⟩
    rw [List.nil_append, lowerAfter_append, lowerAfter_cons, hsmall.lowerHere]
    exact not_infix_concat (hlength _ _) (hdiffers (by rwa [List.append_nil])) hlast

end Settled

section Letters

/-- What is the same for the capitals of the ASCII letters as for the small ones does not depend on their case. -/
theorem same_toLower {α : Type} (f : Char → α)
    (hletters : ∀ n < 26, f (Char.ofNat (65 + n)).toLower = f (Char.ofNat (65 + n))) (c : Char) : f c.toLower = f c := by
  by_cases h : c.isUpper = true
  · have hrange : 65 ≤ c.toNat ∧ c.toNat ≤ 90 := by simpa [Char.isUpper, UInt32.le_iff_toNat_le] using h
    have hletter := hletters (c.toNat - 65) (by omega)
    rwa [Nat.add_sub_cancel' hrange.1, Char.ofNat_toNat] at hletter
  · rw [Char.toLower_eq_of_not_isUpper h]

theorem isCased_toLower (c : Char) : isCased c.toLower = isCased c := same_toLower isCased (by decide +kernel) c

theorem isCaseIgnorable_toLower (c : Char) : isCaseIgnorable c.toLower = isCaseIgnorable c :=
  same_toLower isCaseIgnorable (by decide +kernel) c

theorem lowerHere_toLower (before : List Char) (c : Char) (after : List Char) :
    lowerHere before c.toLower after = lowerHere before c after := by
  have hsigma : (c.toLower == capitalSigma) = (c == capitalSigma) := same_toLower (· == capitalSigma) (by decide +kernel) c
  have hlowers : lowerChar c.toLower = lowerChar c := same_toLower lowerChar (by decide +kernel) c
  unfold lowerHere
  rw [hlowers]
  refine if_congr ?_ rfl rfl
  rw [← beq_iff_eq, hsigma, beq_iff_eq]

theorem meetsLetter_map (s : List Char) : meetsLetter (s.map Char.toLower) = meetsLetter s := by
  have hsame : isCaseIgnorable ∘ Char.toLower = isCaseIgnorable := funext isCaseIgnorable_toLower
  unfold meetsLetter
  rw [List.dropWhile_map, hsame]
  cases s.dropWhile isCaseIgnorable with
  | nil => rfl
  | cons c r => exact isCased_toLower c

theorem lowerAfter_map (before s : List Char) : lowerAfter (before.map Char.toLower) (s.map Char.toLower) = lowerAfter before s := by
  induction s generalizing before with
  | nil => rfl
  | cons c r ih =>
    have hrest := ih (c :: before)
    rw [List.map_cons] at hrest
    rw [List.map_cons, lowerAfter_cons, lowerAfter_cons, lowerHere_toLower, hrest]
    unfold lowerHere endsWord
    rw [meetsLetter_map, meetsLetter_map]

/-- Texts that differ in the case of ASCII letters only have one lower-case form. -/
theorem lower_congr {a b : String} (h : a.toList.map Char.toLower = b.toList.map Char.toLower) : lower a = lower b := by
  rw [← String.toList_inj, toList_lower, toList_lower, ← lowerAfter_map [] a.toList, h, lowerAfter_map]

end Letters

def Mentions (text value : String) : Prop := (lower value).toList <:+: (lower text).toList

def KeepsForms (p v s : String) : Prop := SameForms v.toList p.toList.reverse s.toList [] []

theorem mentions_of_keepsForms {p v s : String} (h : KeepsForms p v s) : Mentions (p ++ v ++ s) v := by
  rw [Mentions, toList_lower_append, lowerBetween_eq_iff.mpr h, lowerBetween_nil, ← toList_lower]
  exact ⟨_, _, List.append_assoc _ _ _⟩

theorem forall_mentions_iff {v : String} : (∀ p s, Mentions (p ++ v ++ s) v) ↔ Steady v.toList := by
  refine ⟨fun h => ?_, fun h p s => mentions_of_keepsForms (h.sameForms _ _)⟩
  by_contra hsteady
  obtain ⟨p, s, hhidden⟩ := exists_hiding hsteady
  have hfound := h (String.ofList p) (String.ofList s)
  rw [Mentions, toList_lower, toList_lower, String.toList_append, String.toList_append, String.toList_ofList,
    String.toList_ofList, List.append_assoc] at hfound
  exact hhidden hfound

end Text

open Text

theorem Trigger.accepts_contains_iff {value text : String} :
    (Trigger.contextMessage .contains value).accepts (.contextMessage text) = true ↔ Mentions text value := by
  rw [accepts, messageMatches, Bool.or_eq_true, contains_iff]
  refine or_iff_right_of_imp fun hempty => ?_
  rw [String.isEmpty_iff.mp hempty]
  exact List.nil_infix

theorem Condition.check_contains_iff {field value : String} {c : Contact} {now : WallClock} :
    (Condition.contactField field .contains value).check c now = true ↔ ∃ text ∈ c.fieldText? field, Mentions text value := by
  rw [check, FieldOperator.holds]
  cases c.fieldText? field with
  | none => simp
  | some text => simp [contains_iff, Mentions]

def Contact.named (name : String) : Contact :=
  ⟨1, .numbered 1, name, "5581999900001", [], none, false, false, none, ⟨1717408800, 0⟩, []⟩

/-- A message that contains the value starts what waits for the value, and a field that contains it passes the test, wherever
the value stands in them, exactly when the value is steady; any other value still matches where its capital sigmas keep
their forms. The case of ASCII letters of the value never matters. -/
theorem matches_where_contained (v : String) :
    ((∀ p s, (Trigger.contextMessage .contains v).accepts (.contextMessage (p ++ v ++ s)) = true) ↔ Steady v.toList) ∧
      ((∀ p s field (c : Contact) now, c.fieldText? field = some (p ++ v ++ s) →
        (Condition.contactField field .contains v).check c now = true) ↔ Steady v.toList) ∧
      (∀ p s, KeepsForms p v s →
        (Trigger.contextMessage .contains v).accepts (.contextMessage (p ++ v ++ s)) = true ∧
          ∀ field (c : Contact) now, c.fieldText? field = some (p ++ v ++ s) →
            (Condition.contactField field .contains v).check c now = true) ∧
      ∀ v' : String, v'.toList.map Char.toLower = v.toList.map Char.toLower →
        (∀ text, (Trigger.contextMessage .contains v').accepts (.contextMessage text) =
          (Trigger.contextMessage .contains v).accepts (.contextMessage text)) ∧
        ∀ field (c : Contact) now, (Condition.contactField field .contains v').check c now =
          (Condition.contactField field .contains v).check c now := by
  have hfield {text : String} (h : Mentions text v) {field : String} {c : Contact} (now : WallClock)
      (htext : c.fieldText? field = some text) : (Condition.contactField field .contains v).check c now = true :=
    Condition.check_contains_iff.mpr ⟨text, htext, h⟩
  refine ⟨?_, ⟨fun h => ?_, fun h p s field c now => ?_⟩, fun p s h => ⟨?_, fun field c now => ?_⟩, fun v' h => ?_⟩
  · simp only [Trigger.accepts_contains_iff]
    exact forall_mentions_iff
  · refine forall_mentions_iff.mp fun p s => ?_
    obtain ⟨text, htext, hmentions⟩ := Condition.check_contains_iff.mp (h p s "name" (.named (p ++ v ++ s)) ⟨.mon, 0⟩ rfl)
    cases htext
    exact hmentions
  · exact hfield (forall_mentions_iff.mpr h p s) now
  · exact Trigger.accepts_contains_iff.mpr (mentions_of_keepsForms h)
  · exact hfield (mentions_of_keepsForms h) now
  · have hlower : lower v' = lower v := lower_congr h
    refine ⟨fun text => ?_, fun field c now => ?_⟩
    · rw [Bool.eq_iff_iff, Trigger.accepts_contains_iff, Trigger.accepts_contains_iff, Mentions, hlower]
      rfl
    · rw [Bool.eq_iff_iff, Condition.check_contains_iff, Condition.check_contains_iff]
      simp only [Mentions, hlower]

theorem steady_street : Steady "ΟΔΟΣ 5".toList := by
  intro i hi hsigma
  have hplace : i = 3 := by
    have hlt : i < 6 := hi
    interval_cases i <;> first | rfl | exact absurd hsigma (by decide)
  subst hplace
  exact .inr ⟨⟨'Ο', by decide, by decide +kernel⟩, .inr ⟨' ', by decide, by decide +kernel⟩⟩

/-- The sigma of this value ends a word wherever the value stands. -/
theorem matches_where_contained_street : Steady "ΟΔΟΣ 5".toList ∧ ∀ p s,
    (Trigger.contextMessage .contains "ΟΔΟΣ 5").accepts (.contextMessage (p ++ "ΟΔΟΣ 5" ++ s)) = true :=
  ⟨steady_street, (matches_where_contained "ΟΔΟΣ 5").1.mpr steady_street⟩

/-- The sigma of this one does so by itself, but not within a longer word. -/
theorem easter_not_matched :
    (Trigger.contextMessage .contains "ΠΑΣ").accepts (.contextMessage ("" ++ "ΠΑΣ" ++ "ΧΑ")) = false ∧
      (Contact.named "ΠΑΣΧΑ").fieldText? "name" = some ("" ++ "ΠΑΣ" ++ "ΧΑ") ∧
      (Condition.contactField "name" .contains "ΠΑΣ").check (.named "ΠΑΣΧΑ") ⟨.mon, 0⟩ = false := by
  refine ⟨?_, ?_, ?_⟩ <;> decide +kernel

end Outreach
