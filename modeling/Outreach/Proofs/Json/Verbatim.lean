import Outreach.Proofs.Json.Records

/-! Values that their texts give back. Such a text has the document of the value itself, so that whatever is read from
the value is read from its text. -/
namespace Outreach

namespace Json.Spelling
variable {s : Spelling}

/-- Without a fraction and an exponent, only a sign and digits are left. -/
theorem chars_whole (h : s.WellFormed) (hfraction : s.fraction = none) (hexponent : s.exponent = none) :
    ∀ c ∈ s.chars, c = '-' ∨ c.isDigit = true := by
  obtain ⟨⟨-, hdigits⟩, -⟩ := h.whole
  intro c hc
  rw [chars, hfraction, hexponent, fractionChars, exponentChars, List.append_nil, List.append_nil] at hc
  obtain hc | hc := List.mem_append.mp hc
  · cases hsign : s.negative with
    | false =>
      rw [hsign] at hc
      cases hc
    | true =>
      rw [hsign] at hc
      exact .inl (List.mem_singleton.mp hc)
  · exact .inr (hdigits c hc)

/-- A fraction or an exponent makes a numeral floating. -/
theorem exists_float_of_number? (h : ¬ (s.fraction = none ∧ s.exponent = none)) {n : Number} (hn : s.number? = some n) :
    ∃ x, n = .float x := by
  obtain ⟨negative, whole, fraction, exponent⟩ := s
  simp only [number?, numberOf] at hn
  split at hn
  · exact absurd ⟨rfl, rfl⟩ h
  · obtain ⟨x, -, rfl⟩ := Option.map_eq_some_iff.mp hn
    exact ⟨_, rfl⟩

end Json.Spelling

namespace Json
open Text

theorem mem_scientificChars {ds : List Char} (h : ds ≠ []) (e : Int) : 'e' ∈ scientificChars ds e := by
  cases ds with
  | nil => exact absurd rfl h
  | cons d r => cases r <;> simp [scientificChars]

/-- However a floating number is laid out, it has a point or an exponent. -/
theorem mem_floatChars {ds : List Char} (h : ds ≠ []) (k : Int) : '.' ∈ floatChars ds k ∨ 'e' ∈ floatChars ds k := by
  simp only [floatChars]
  split
  · simp
  · split
    · simp
    · split
      · simp
      · exact .inr (mem_scientificChars h _)

end Json

namespace Number
open Json

theorem text_float_marked (x : Binary64) : '.' ∈ (text (.float x)).toList ∨ 'e' ∈ (text (.float x)).toList := by
  cases h : x.isZero with
  | true =>
    have htext : text (.float x) = (if x.negative then "-" else "") ++ "0.0" := by
      rw [text, Binary64.text, h]
      rfl
    rw [htext, String.toList_append]
    exact .inl (List.mem_append_right _ (by decide))
  | false =>
    have hne : x.significand ≠ 0 := by simpa [Binary64.isZero] using h
    rw [text, toList_floatText h, List.mem_append, List.mem_append]
    obtain hs | hs := Binary64.shortest_pos hne
    · rw [floatExponent, hs]
      exact .inl (.inr (by decide))
    · exact (mem_floatChars (Binary64.significantDigits_ne_nil hs) _).imp .inr .inr

theorem exists_float_of_reread? {x : Binary64} {n : Number} (h : reread? (.float x) = some n) : ∃ y, n = .float y := by
  obtain ⟨s, hs, htext⟩ := exists_spelling (.float x)
  rw [reread?_eq hs htext] at h
  refine Spelling.exists_float_of_number? (fun hplain => ?_) h
  have hwhole := Spelling.chars_whole hs hplain.1 hplain.2
  rw [← htext] at hwhole
  obtain hc | hc := text_float_marked x
  · exact absurd (hwhole _ hc) (by decide)
  · exact absurd (hwhole _ hc) (by decide)

end Number

namespace Json
open Decode

mutual

/-- A value that stands nowhere too deep, with numbers that are read back, has its own document in its text. -/
theorem docAt_eq_ofJson (j : Json) {limit n : Nat} (hdepth : n + j.depth ≤ limit)
    (hnumbers : ∀ x ∈ j.numbers, x.reread? = some x) : docAt limit n j = Doc.ofJson j := by
  match j with
  | .null | .bool _ | .str _ => rfl
  | .num x =>
    rw [docAt, hnumbers x (by simp [numbers])]
    rfl
  | .arr xs =>
    rw [depth] at hdepth
    rw [docAt, if_neg (by omega), itemDocs_eq_ofItems xs (by omega) hnumbers, Doc.ofJson]
  | .obj ms =>
    rw [depth] at hdepth
    rw [docAt, if_neg (by omega), memberDocs_eq_ofMembers ms (by omega) hnumbers, Doc.ofJson]

theorem itemDocs_eq_ofItems (xs : List Json) {limit n : Nat} (hdepth : n + itemsDepth xs ≤ limit)
    (hnumbers : ∀ x ∈ itemsNumbers xs, x.reread? = some x) : itemDocs limit n xs = Doc.ofItems xs := by
  match xs with
  | [] => rfl
  | j :: r =>
    rw [itemsDepth] at hdepth
    rw [itemsNumbers, List.forall_mem_append] at hnumbers
    rw [itemDocs, Doc.ofItems, docAt_eq_ofJson j (by omega) hnumbers.1, itemDocs_eq_ofItems r (by omega) hnumbers.2]

theorem memberDocs_eq_ofMembers (ms : List (String × Json)) {limit n : Nat} (hdepth : n + membersDepth ms ≤ limit)
    (hnumbers : ∀ x ∈ membersNumbers ms, x.reread? = some x) : memberDocs limit n ms = Doc.ofMembers ms := by
  match ms with
  | [] => rfl
  | (k, j) :: r =>
    rw [membersDepth] at hdepth
    rw [membersNumbers, List.forall_mem_append] at hnumbers
    rw [memberDocs, Doc.ofMembers, docAt_eq_ofJson j (by omega) hnumbers.1,
      memberDocs_eq_ofMembers r (by omega) hnumbers.2]

end

theorem mem_itemsNumbers {xs : List Json} {n : Number} : n ∈ itemsNumbers xs ↔ ∃ j ∈ xs, n ∈ j.numbers := by
  induction xs with
  | nil => simp [itemsNumbers]
  | cons j xs ih => simp [itemsNumbers, ih]

theorem itemsNumbers_map_eq_nil {α : Type} {f : α → Json} (h : ∀ a, (f a).numbers = []) (as : List α) :
    itemsNumbers (as.map f) = [] := by
  induction as with
  | nil => rfl
  | cons a as ih => rw [List.map_cons, itemsNumbers, h, ih, List.append_nil]

theorem membersNumbers_append (ms ns : List (String × Json)) :
    membersNumbers (ms ++ ns) = membersNumbers ms ++ membersNumbers ns := by
  induction ms with
  | nil => rfl
  | cons m ms ih => rw [List.cons_append, membersNumbers, membersNumbers, ih, List.append_assoc]

end Json

namespace Decode
open Json

variable {α : Type} {o : Origin}

theorem ofText_of_reading? {j : Json} (h : j.reading? = some j) (dec : Decoder α) :
    Decode.ofText dec j.text = dec .text (Doc.ofJson j) := by
  obtain ⟨hdepth, hnumbers⟩ := reading?_eq_self.mp h
  have hread : Json.read j.text = (Doc.ofJson j, true) := by
    rw [Json.read, readWithin_text, docAt_eq_ofJson j (by omega) hnumbers]
  simp only [Decode.ofText, hread]
  cases dec .text (Doc.ofJson j) <;> rfl

theorem Fields.Reads.object_ofJson {fs : Fields α} {ms : List (String × Json)} {a : α}
    (h : fs.Reads o (fun c => (Keyed.get? ms c.name).map Doc.ofJson) a) (hkeys : (ms.map (·.1)).Nodup) :
    fs.object o (Doc.ofJson (.obj ms)) = .ok a := by
  rw [Doc.ofJson, ofMembers_eq]
  exact h.object hkeys isWhole_ofJson

theorem list_ofJson {dec : Decoder α} {encode : α → Json} {as : List α}
    (h : ∀ a ∈ as, dec o (Doc.ofJson (encode a)) = .ok a) :
    Decode.list dec o (Doc.ofJson (.arr (as.map encode))) = .ok as := by
  rw [Doc.ofJson, ofItems_eq, List.map_map]
  exact listFrom_map h

end Decode
end Outreach
