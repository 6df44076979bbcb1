import Mathlib.Tactic.Ring
import Outreach.Json.Reader
import Outreach.Proofs.Number.Shortest

/-! Numbers as text. Every number is written as a numeral of the grammar, and a numeral is read in one piece
whatever follows it; integers are read back as they were. -/
namespace Outreach.Json
open Text

structure Spelling where
  negative : Bool
  whole : List Char
  fraction : Option (List Char)
  exponent : Option (Bool × List Char)

namespace Spelling

def signChars (negative : Bool) : List Char := if negative then ['-'] else []

def fractionChars : Option (List Char) → List Char
  | none => []
  | some ds => '.' :: ds

def exponentChars : Option (Bool × List Char) → List Char
  | none => []
  | some (down, ds) => 'e' :: (if down then '-' else '+') :: ds

def chars (s : Spelling) : List Char :=
  signChars s.negative ++ (s.whole ++ (fractionChars s.fraction ++ exponentChars s.exponent))

def number? (s : Spelling) : Option Number := numberOf s.negative s.whole s.fraction s.exponent

end Spelling

def IsDigits (ds : List Char) : Prop := ds ≠ [] ∧ ∀ c ∈ ds, c.isDigit = true

def IsWhole (ds : List Char) : Prop := IsDigits ds ∧ ¬ (ds.head? = some '0' ∧ 1 < ds.length)

structure Spelling.WellFormed (s : Spelling) : Prop where
  whole : IsWhole s.whole
  fraction : ∀ ds ∈ s.fraction, IsDigits ds
  exponent : ∀ e ∈ s.exponent, IsDigits e.2

def Stops (rest : List Char) : Prop := ∀ c ∈ rest.head?, c.isDigit = false ∧ c ≠ '.' ∧ c ≠ 'e' ∧ c ≠ 'E'

theorem stops_nil : Stops [] := by simp [Stops]

theorem stops_cons {c : Char} (h : c.isDigit = false ∧ c ≠ '.' ∧ c ≠ 'e' ∧ c ≠ 'E') (rest : List Char) :
    Stops (c :: rest) := by simpa [Stops] using h

/-! The scanner in four parts. -/

def signedExponent? (r : List Char) : Option (Option (Bool × List Char) × List Char) :=
  let (down, r) := match r with
    | '-' :: r => (true, r)
    | '+' :: r => (false, r)
    | _ => (false, r)
  let (ds, r) := spanDigits r
  if ds.isEmpty then none else some (some (down, ds), r)

def exponentPart? (s : List Char) : Option (Option (Bool × List Char) × List Char) :=
  match s with
  | 'e' :: r => signedExponent? r
  | 'E' :: r => signedExponent? r
  | _ => some (none, s)

def fractionPart? (s : List Char) : Option (Option (List Char) × List Char) :=
  match s with
  | '.' :: r =>
    let (ds, r) := spanDigits r
    if ds.isEmpty then none else some (some ds, r)
  | _ => some (none, s)

def afterSign? (negative : Bool) (s : List Char) : Option (Option Number × List Char) :=
  let (whole, s) := spanDigits s
  if whole.isEmpty || (whole.head? == some '0' && 1 < whole.length) then none
  else
    match fractionPart? s with
    | none => none
    | some (fraction, s) =>
      (exponentPart? s).map fun (exponent, rest) => (numberOf negative whole fraction exponent, rest)

def takeSign (s : List Char) : Bool × List Char :=
  match s with
  | '-' :: r => (true, r)
  | _ => (false, s)

theorem scanNumber_eq (s : List Char) : scanNumber s = afterSign? (takeSign s).1 (takeSign s).2 := rfl

section Scanning
variable {rest : List Char}

theorem spanDigits_append {ds : List Char} (hds : ∀ c ∈ ds, c.isDigit = true)
    (hr : ∀ c ∈ rest.head?, c.isDigit = false) : spanDigits (ds ++ rest) = (ds, rest) := by
  have htake : rest.takeWhile Char.isDigit = [] := by
    cases rest with
    | nil => rfl
    | cons c rest => simp [hr c (by simp)]
  have hdrop : rest.dropWhile Char.isDigit = rest := by
    cases rest with
    | nil => rfl
    | cons c rest => simp [hr c (by simp)]
  rw [spanDigits, List.takeWhile_append_of_pos hds, List.dropWhile_append_of_pos hds, htake, hdrop, List.append_nil]

theorem exponentChars_head {e : Option (Bool × List Char)} (hr : Stops rest) :
    ∀ c ∈ (Spelling.exponentChars e ++ rest).head?, c.isDigit = false ∧ c ≠ '.' := by
  cases e with
  | none => exact fun c hc => ⟨(hr c hc).1, (hr c hc).2.1⟩
  | some e => simp [Spelling.exponentChars, Char.isDigit]

theorem fractionChars_head {f : Option (List Char)} {e : Option (Bool × List Char)} (hr : Stops rest) :
    ∀ c ∈ (Spelling.fractionChars f ++ (Spelling.exponentChars e ++ rest)).head?, c.isDigit = false := by
  cases f with
  | none => exact fun c hc => (exponentChars_head hr c hc).1
  | some f => simp [Spelling.fractionChars, Char.isDigit]

theorem fractionPart?_chars {f : Option (List Char)} {e : Option (Bool × List Char)} (hf : ∀ ds ∈ f, IsDigits ds)
    (hr : Stops rest) : fractionPart? (Spelling.fractionChars f ++ (Spelling.exponentChars e ++ rest)) =
      some (f, Spelling.exponentChars e ++ rest) := by
  have hhead := exponentChars_head (e := e) hr
  cases f with
  | none =>
    simp only [Spelling.fractionChars, List.nil_append, fractionPart?]
    split
    · rename_i r heq
      exact absurd rfl (hhead '.' (by simp [heq])).2
    · rfl
  | some ds =>
    obtain ⟨hne, hds⟩ := hf ds rfl
    simp [Spelling.fractionChars, fractionPart?, spanDigits_append hds fun c hc => (hhead c hc).1, hne]

theorem exponentPart?_chars {e : Option (Bool × List Char)} (he : ∀ x ∈ e, IsDigits x.2) (hr : Stops rest) :
    exponentPart? (Spelling.exponentChars e ++ rest) = some (e, rest) := by
  cases e with
  | none =>
    simp only [Spelling.exponentChars, List.nil_append, exponentPart?]
    split
    · exact absurd rfl (hr 'e' (by simp)).2.2.1
    · exact absurd rfl (hr 'E' (by simp)).2.2.2
    · rfl
  | some x =>
    obtain ⟨down, ds⟩ := x
    obtain ⟨hne, hds⟩ := he (down, ds) rfl
    have hspan := spanDigits_append hds fun c hc => (hr c hc).1
    cases down <;> simp [Spelling.exponentChars, exponentPart?, signedExponent?, hspan, hne]

theorem afterSign?_chars {s : Spelling} (h : s.WellFormed) (hr : Stops rest) :
    afterSign? s.negative
        (s.whole ++ (Spelling.fractionChars s.fraction ++ (Spelling.exponentChars s.exponent ++ rest))) =
      some (s.number?, rest) := by
  obtain ⟨⟨hne, hds⟩, hlead⟩ := h.whole
  have hwhole : (s.whole.isEmpty || (s.whole.head? == some '0' && decide (1 < s.whole.length))) = false := by
    simpa [hne] using hlead
  simp only [afterSign?, spanDigits_append hds (fractionChars_head hr), hwhole, Bool.false_eq_true, if_false,
    fractionPart?_chars h.fraction hr, exponentPart?_chars h.exponent hr]
  rfl

theorem takeSign_chars {ds : List Char} (h : IsDigits ds) (negative : Bool) :
    takeSign (Spelling.signChars negative ++ (ds ++ rest)) = (negative, ds ++ rest) := by
  obtain ⟨hne, hds⟩ := h
  cases negative with
  | true => rfl
  | false =>
    cases ds with
    | nil => exact absurd rfl hne
    | cons c ds =>
      have hc : c ≠ '-' := by
        rintro rfl
        exact absurd (hds '-' (by simp)) (by decide)
      simp [Spelling.signChars, takeSign, hc]

theorem scanNumber_chars {s : Spelling} (h : s.WellFormed) (hr : Stops rest) :
    scanNumber (s.chars ++ rest) = some (s.number?, rest) := by
  simp only [Spelling.chars, List.append_assoc]
  rw [scanNumber_eq, takeSign_chars h.whole.1, afterSign?_chars h hr]

end Scanning

theorem isWhole_of_head {ds : List Char} (h : IsDigits ds) (hz : ds.head? ≠ some '0') : IsWhole ds :=
  ⟨h, fun hl => hz hl.1⟩

theorem isWhole_zero : IsWhole ['0'] := ⟨⟨by simp, by simp⟩, by simp⟩

theorem isDigits_toDigits (n : Nat) : IsDigits (Nat.toDigits 10 n) := ⟨Nat.toDigits_ne_nil, toDigits_isDigit n⟩

theorem isWhole_toDigits (n : Nat) : IsWhole (Nat.toDigits 10 n) := by
  by_cases h : n = 0
  · subst h
    exact isWhole_zero
  · exact isWhole_of_head (isDigits_toDigits n) (head?_toDigits h)

theorem isDigits_append {a b : List Char} (ha : IsDigits a) (hb : ∀ c ∈ b, c.isDigit = true) : IsDigits (a ++ b) :=
  ⟨by simp [ha.1], fun c hc => (List.mem_append.mp hc).elim (ha.2 c) (hb c)⟩

theorem zeros_isDigit (k : Nat) : ∀ c ∈ List.replicate k '0', c.isDigit = true := by
  intro c hc
  rw [(List.mem_replicate.mp hc).2]
  rfl

def scientificChars (ds : List Char) (e : Int) : List Char :=
  let exponent := (if e < 0 then ['-'] else ['+']) ++ Nat.toDigits 10 e.natAbs
  match ds with
  | [d] => d :: 'e' :: exponent
  | d :: r => d :: '.' :: (r ++ 'e' :: exponent)
  | [] => []

def floatChars (ds : List Char) (k : Int) : List Char :=
  let point : Int := ds.length + k
  if 0 ≤ k ∧ point ≤ 16 then ds ++ List.replicate k.toNat '0' ++ ['.', '0']
  else if 0 < point ∧ point ≤ 16 then ds.take point.toNat ++ '.' :: ds.drop point.toNat
  else if -5 < point ∧ point ≤ 0 then '0' :: '.' :: (List.replicate (-point).toNat '0' ++ ds)
  else scientificChars ds (point - 1)

def floatExponent (x : Binary64) : Int :=
  let c := x.shortest.1
  x.shortest.2 + ((Nat.toDigits 10 c).length - (Binary64.significantDigits c).length : Nat)

theorem toList_floatText {x : Binary64} (h : x.isZero = false) : x.text.toList =
    Spelling.signChars x.negative ++ floatChars (Binary64.significantDigits x.shortest.1) (floatExponent x) := by
  have hbody : x.text = (if x.negative then "-" else "") ++
      String.ofList (floatChars (Binary64.significantDigits x.shortest.1) (floatExponent x)) := by
    unfold Binary64.text
    rw [h]
    rfl
  rw [hbody, String.toList_append, String.toList_ofList]
  cases x.negative <;> rfl

theorem scientificChars_spelling {ds : List Char} (h : IsDigits ds) (hz : ds.head? ≠ some '0') (e : Int)
    (negative : Bool) :
    ∃ s : Spelling, s.WellFormed ∧ Spelling.signChars negative ++ scientificChars ds e = s.chars := by
  have hexp : IsDigits (Nat.toDigits 10 e.natAbs) := isDigits_toDigits _
  cases ds with
  | nil => exact absurd rfl h.1
  | cons d r =>
    have hd : IsWhole [d] := isWhole_of_head ⟨by simp, fun c hc => h.2 c (by simp_all)⟩ (by simpa using hz)
    cases r with
    | nil =>
      refine ⟨⟨negative, [d], none, some (decide (e < 0), Nat.toDigits 10 e.natAbs)⟩, ⟨hd, by simp, ?_⟩, ?_⟩
      · rintro x ⟨⟩
        exact hexp
      · by_cases he : e < 0 <;>
          simp [scientificChars, Spelling.chars, Spelling.fractionChars, Spelling.exponentChars, he]
    | cons c r =>
      refine ⟨⟨negative, [d], some (c :: r), some (decide (e < 0), Nat.toDigits 10 e.natAbs)⟩, ⟨hd, ?_, ?_⟩, ?_⟩
      · rintro x ⟨⟩
        exact ⟨by simp, fun y hy => h.2 y (by simp_all)⟩
      · rintro x ⟨⟩
        exact hexp
      · by_cases he : e < 0 <;>
          simp [scientificChars, Spelling.chars, Spelling.fractionChars, Spelling.exponentChars, he]

/-- Digits that do not begin with a zero make a numeral wherever the point goes. -/
theorem floatChars_spelling {ds : List Char} (h : IsDigits ds) (hz : ds.head? ≠ some '0') (k : Int)
    (negative : Bool) :
    ∃ s : Spelling, s.WellFormed ∧ Spelling.signChars negative ++ floatChars ds k = s.chars := by
  have hlen := List.length_pos_iff.mpr h.1
  simp only [floatChars]
  split
  · refine ⟨⟨negative, ds ++ List.replicate k.toNat '0', some ['0'], none⟩, ⟨?_, ?_, by simp⟩, ?_⟩
    · refine isWhole_of_head (isDigits_append h (zeros_isDigit _)) ?_
      rwa [List.head?_append_of_ne_nil _ h.1]
    · simp [IsDigits]
    · simp [Spelling.chars, Spelling.fractionChars, Spelling.exponentChars]
  · split
    · rename_i hk hp
      obtain ⟨p, hpoint⟩ : ∃ p, ((ds.length : Int) + k).toNat = p := ⟨_, rfl⟩
      have hlt : p < ds.length ∧ 0 < p := by omega
      rw [hpoint]
      refine ⟨⟨negative, ds.take p, some (ds.drop p), none⟩, ⟨?_, ?_, by simp⟩, ?_⟩
      · refine isWhole_of_head ⟨?_, fun c hc => h.2 c (List.mem_of_mem_take hc)⟩ ?_
        · rw [← List.length_pos_iff, List.length_take]
          omega
        · rwa [List.head?_take, if_neg (by omega)]
      · rintro x ⟨⟩
        refine ⟨?_, fun c hc => h.2 c (List.mem_of_mem_drop hc)⟩
        rw [← List.length_pos_iff, List.length_drop]
        omega
      · simp [Spelling.chars, Spelling.fractionChars, Spelling.exponentChars]
    · split
      · refine ⟨⟨negative, ['0'], some (List.replicate (-((ds.length : Int) + k)).toNat '0' ++ ds), none⟩,
          ⟨isWhole_zero, ?_, by simp⟩, ?_⟩
        · rintro x ⟨⟩
          exact ⟨by simp [h.1], fun c hc => (List.mem_append.mp hc).elim (zeros_isDigit _ c) (h.2 c)⟩
        · simp [Spelling.chars, Spelling.fractionChars, Spelling.exponentChars]
      · exact scientificChars_spelling h hz _ negative

theorem integerDigits_eq {ds : List Char} {a : Nat} (h : 10 ^ ds.length * a + digitsValue ds < 2 ^ 64) :
    Numeral.integerDigits ⟨a, 0⟩ false ds = (⟨10 ^ ds.length * a + digitsValue ds, 0⟩, false) := by
  induction ds generalizing a with
  | nil => simp [Numeral.integerDigits, digitsValue]
  | cons d ds ih =>
    have hvalue : 10 ^ (d :: ds).length * a + digitsValue (d :: ds) =
        10 ^ ds.length * (10 * a + (d.toNat - 48)) + digitsValue ds := by
      rw [digitsValue_cons, List.length_cons]
      ring
    have hfits : 10 * a + (d.toNat - 48) < 2 ^ 64 := by
      have := Nat.le_mul_of_pos_left (10 * a + (d.toNat - 48)) (Nat.pow_pos (by omega) : 0 < 10 ^ ds.length)
      omega
    rw [hvalue] at h ⊢
    rw [← ih h]
    simp only [Numeral.integerDigits]
    exact if_neg (by simpa using hfits)

end Outreach.Json

namespace Outreach.Number
open Json Text

theorem toList_intText (i : Int) : (text (.int i)).toList =
    Spelling.chars ⟨decide (i < 0), Nat.toDigits 10 i.natAbs, none, none⟩ := by
  by_cases hi : i < 0 <;>
    simp [text, decimalInt, decimal, hi, Spelling.chars, Spelling.signChars, Spelling.fractionChars,
      Spelling.exponentChars]

theorem exists_spelling (n : Number) : ∃ s : Spelling, s.WellFormed ∧ n.text.toList = s.chars := by
  cases n with
  | int i =>
    exact ⟨_, ⟨isWhole_toDigits _, by simp, by simp⟩, toList_intText i⟩
  | float x =>
    have hzero (negative : Bool) : Spelling.WellFormed ⟨negative, ['0'], some ['0'], none⟩ :=
      ⟨isWhole_zero, by simp [IsDigits], by simp⟩
    cases h : x.isZero with
    | true =>
      refine ⟨_, hzero x.negative, ?_⟩
      cases hn : x.negative <;> simp [text, Binary64.text, h, hn] <;> rfl
    | false =>
      have hne : x.significand ≠ 0 := by simpa [Binary64.isZero] using h
      rw [text, toList_floatText h]
      obtain hs | hs := Binary64.shortest_pos hne
      · refine ⟨_, hzero x.negative, ?_⟩
        rw [floatExponent, hs]
        rfl
      · exact floatChars_spelling ⟨Binary64.significantDigits_ne_nil hs, Binary64.significantDigits_isDigit _⟩
          (Binary64.head?_significantDigits hs) _ _

/-- What the text of a number is read as, none for one past the floating range. -/
def reread? (n : Number) : Option Number := (scanNumber n.text.toList).bind (·.1)

theorem reread?_eq {n : Number} {s : Spelling} (hs : s.WellFormed) (htext : n.text.toList = s.chars) :
    n.reread? = s.number? := by
  have hscan := scanNumber_chars hs stops_nil
  rw [List.append_nil] at hscan
  rw [reread?, htext, hscan]
  rfl

theorem scanNumber_text (n : Number) {rest : List Char} (hr : Stops rest) :
    scanNumber (n.text.toList ++ rest) = some (n.reread?, rest) := by
  obtain ⟨s, hs, htext⟩ := exists_spelling n
  rw [htext, scanNumber_chars hs hr, reread?_eq hs htext]

theorem toList_text (n : Number) : ∃ c r, n.text.toList = c :: r ∧ (c = '-' ∨ c.isDigit = true) := by
  obtain ⟨s, hs, htext⟩ := exists_spelling n
  obtain ⟨⟨hne, hds⟩, -⟩ := hs.whole
  rw [htext, Spelling.chars]
  cases s.negative with
  | true => exact ⟨_, _, rfl, .inl rfl⟩
  | false =>
    cases hw : s.whole with
    | nil => exact absurd hw hne
    | cons c ds => exact ⟨_, _, rfl, .inr (hds c (by simp [hw]))⟩

/-- Integers of 64 bits, with or without a sign, are read back. -/
theorem reread?_int {i : Int} (hlo : -(2 ^ 63) ≤ i) (hhi : i < 2 ^ 64) : reread? (.int i) = some (.int i) := by
  have hdigits := @integerDigits_eq (Nat.toDigits 10 i.natAbs) 0 (by rw [digitsValue_toDigits]; omega)
  rw [digitsValue_toDigits, Nat.mul_zero, Nat.zero_add] at hdigits
  have hs : Spelling.WellFormed ⟨decide (i < 0), Nat.toDigits 10 i.natAbs, none, none⟩ :=
    ⟨isWhole_toDigits _, by simp, by simp⟩
  rw [reread?_eq hs (toList_intText i), Spelling.number?, numberOf, hdigits]
  by_cases hi : i < 0
  · have hpow : Nat.pow 2 63 = 2 ^ 63 := rfl
    have hrange : (decide (0 < i.natAbs) && decide (i.natAbs ≤ Nat.pow 2 63)) = true := by
      rw [Bool.and_eq_true, decide_eq_true_eq, decide_eq_true_eq]
      omega
    have hneg : -(i.natAbs : Int) = i := by omega
    simp only [hi, decide_true, Bool.not_true, Bool.false_eq_true, if_false, hrange, if_true, hneg]
  · have hpos : (i.natAbs : Int) = i := by omega
    simp only [hi, decide_false, Bool.not_false, Bool.false_eq_true, if_false, if_true, hpos]

end Outreach.Number
