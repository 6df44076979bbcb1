import Mathlib
import Outreach.Proofs.Json.Tokens
import Outreach.Proofs.Text.Bytes
import Outreach.Security.Signature

/-! Signatures as they are checked. The hexadecimal text of the digest is accepted, in either letter case and with or
without its scheme; and so is a text that has a plus sign in place of the first digit of a byte below sixteen. -/
namespace Outreach

namespace Text
variable {c : Char} {n : Nat}

theorem hexDigit_lower : ∀ n < 16, (hexDigit n).toLower = hexDigit n ∧ (hexDigit n).toNat < 128 ∧ hexDigit n ≠ '+' := by
  decide

theorem toNat_lt_of_toLower (h : c.toLower.toNat < 128) : c.toNat < 128 := by
  unfold Char.toLower at h
  split at h
  · rename_i hupper
    exact (show c.toNat ≤ 90 from hupper.2).trans_lt (by decide)
  · exact h

theorem plus_ne_of_toLower (hn : n < 16) (hc : c.toLower = hexDigit n) : '+' ≠ c := by
  rintro rfl
  exact (hexDigit_lower n hn).2.2 hc.symm

theorem toNat_lt_of_hexValue? (h : hexValue? c = some n) : c.toNat < 128 := by
  unfold hexValue? at h
  by_contra hlarge
  have hnone (d : Char) (hd : d.toNat < 128) : ¬ c ≤ d := fun hle => hlarge ((show c.toNat ≤ d.toNat from hle).trans_lt hd)
  simp [hnone] at h

/-- A character has a value when it is a digit of that value in either letter case. -/
theorem hexValue?_eq_some : hexValue? c = some n ↔ n < 16 ∧ c.toLower = hexDigit n := by
  have hvalue : ∀ k < 128, ∀ n ∈ hexValue? (Char.ofNat k), n < 16 ∧ (Char.ofNat k).toLower = hexDigit n := by decide
  have hdigit : ∀ k < 128, ∀ n < 16, (Char.ofNat k).toLower = hexDigit n → hexValue? (Char.ofNat k) = some n := by
    decide +kernel
  -- Both tables end at 128, since either side bounds the character.
  constructor
  · intro h
    have hc := hvalue c.toNat (toNat_lt_of_hexValue? h) n
    rw [Char.ofNat_toNat] at hc
    exact hc h
  · rintro ⟨hn, hlower⟩
    have hc := hdigit c.toNat (toNat_lt_of_toLower (hlower ▸ (hexDigit_lower n hn).2.1)) n hn
    rw [Char.ofNat_toNat] at hc
    exact hc hlower

theorem after?_eq_some {start s rest : List Char} : after? start s = some rest ↔ s = start ++ rest := by
  constructor
  · intro h
    unfold after? at h
    split at h
    · rename_i hbegins
      obtain ⟨tail, rfl⟩ := List.isPrefixOf_iff_prefix.mp hbegins
      rw [List.drop_left, Option.some.injEq] at h
      rw [h]
    · cases h
  · rintro rfl
    exact Json.after?_append start rest

end Text

namespace Signature
open Text

section Comparing
variable {a b : List UInt8}

theorem foldl_or_xor_eq_zero (pairs : List (UInt8 × UInt8)) (acc : UInt8) :
    pairs.foldl (fun acc p => acc ||| (p.1 ^^^ p.2)) acc = 0 ↔ acc = 0 ∧ ∀ p ∈ pairs, p.1 = p.2 := by
  induction pairs generalizing acc with
  | nil => simp
  | cons p pairs ih => rw [List.foldl_cons, ih, UInt8.or_eq_zero_iff, UInt8.xor_eq_zero_iff, List.forall_mem_cons, and_assoc]

/-- No difference is lost on the way, and a longer text is no match for its beginning. -/
theorem constantTimeEq_iff : constantTimeEq a b = true ↔ a = b := by
  rw [constantTimeEq, Bool.and_eq_true, beq_iff_eq, beq_iff_eq, foldl_or_xor_eq_zero, eq_self_iff_true, true_and]
  induction a generalizing b with
  | nil => cases b <;> simp
  | cons x a ih =>
    cases b with
    | nil => simp
    | cons y b => simp [← ih, and_left_comm]

/-- The bearer of a secret has it in the header, and nothing else. -/
theorem verifyBearer_eq_ok {expected : String} {header : Option String} :
    verifyBearer expected header = .ok () ↔ header = some ("Bearer " ++ expected) := by
  cases header with
  | none => exact iff_of_false nofun nofun
  | some h =>
    rw [Option.some.injEq, ← String.toList_inj, String.toList_append]
    simp only [verifyBearer, Option.bind_some]
    cases hafter : after? "Bearer ".toList h.toList with
    | none =>
      refine iff_of_false nofun fun heq => ?_
      rw [heq, Json.after?_append] at hafter
      cases hafter
    | some token =>
      have htoken : token = expected.toList ↔ expected = String.ofList token := by
        rw [← String.toList_inj, String.toList_ofList, eq_comm]
      rw [after?_eq_some.mp hafter, List.append_cancel_left_eq, htoken, ← bytes_injective, ← constantTimeEq_iff]
      dsimp only
      split
      · rename_i hsame
        exact iff_of_true rfl hsame
      · rename_i hsame
        exact iff_of_false nofun hsame

end Comparing

section Pairs
variable {x : UInt8} {bs : List UInt8} {a b : Char} {cs : List Char}

/-- What is taken for a byte: its two digits in either letter case, the first of which may be a plus sign when it is zero. -/
structure IsPair (x : UInt8) (a b : Char) : Prop where
  high : a.toLower = hexDigit (x.toNat / 16) ∨ a = '+' ∧ x.toNat < 16
  low : b.toLower = hexDigit (x.toNat % 16)

inductive Spells : List UInt8 → List Char → Prop where
  | nil : Spells [] []
  | cons {x : UInt8} {bs : List UInt8} {a b : Char} {cs : List Char} (pair : IsPair x a b) (rest : Spells bs cs) :
    Spells (x :: bs) (a :: b :: cs)

theorem pairValue?_eq_some : pairValue? a b = some x ↔ IsPair x a b := by
  have hhalves (h l : Nat) (hh : h < 16) (hl : l < 16) : (UInt8.ofNat (16 * h + l)).toNat / 16 = h ∧
      (UInt8.ofNat (16 * h + l)).toNat % 16 = l := by
    rw [UInt8.toNat_ofNat_of_lt' (show 16 * h + l < 256 by omega)]
    omega
  have hx : x.toNat < 256 := x.toNat_lt
  have hwhole : UInt8.ofNat (16 * (x.toNat / 16) + x.toNat % 16) = x := by
    rw [Nat.div_add_mod, UInt8.ofNat_toNat]
  constructor
  · intro h
    unfold pairValue? at h
    split at h
    · rename_i u v hu hv
      cases h
      obtain ⟨hl, hlow⟩ := hexValue?_eq_some.mp hv
      split at hu
      · rename_i ha
        cases hu
        obtain ⟨hdiv, hmod⟩ := hhalves 0 v (by decide) hl
        exact ⟨.inr ⟨ha, by omega⟩, hmod.symm ▸ hlow⟩
      · obtain ⟨hh, hhigh⟩ := hexValue?_eq_some.mp hu
        obtain ⟨hdiv, hmod⟩ := hhalves u v hh hl
        exact ⟨.inl (hdiv.symm ▸ hhigh), hmod.symm ▸ hlow⟩
    · cases h
  · rintro ⟨hhigh, hlow⟩
    have hb : hexValue? b = some (x.toNat % 16) := hexValue?_eq_some.mpr ⟨by omega, hlow⟩
    have ha : (if a = '+' then some 0 else hexValue? a) = some (x.toNat / 16) := by
      obtain hdigit | ⟨rfl, hsmall⟩ := hhigh
      · rw [if_neg (plus_ne_of_toLower (by omega) hdigit).symm]
        exact hexValue?_eq_some.mpr ⟨by omega, hdigit⟩
      · rw [if_pos rfl, Nat.div_eq_of_lt hsmall]
    simp only [pairValue?, ha, hb, hwhole]

theorem pairs?_eq_some : pairs? cs = some bs ↔ Spells bs cs := by
  fun_induction pairs? cs generalizing bs with
  | case1 =>
    constructor
    · intro h
      cases h
      exact .nil
    · intro h
      cases h
      rfl
  | case2 =>
    constructor
    · intro h
      cases h
    · intro h
      cases h
  | case3 a b cs ih =>
    simp only [Option.bind_eq_bind, Option.bind_eq_some_iff, pairValue?_eq_some, ih, Option.pure_def, Option.some.injEq]
    constructor
    · rintro ⟨x, hpair, rest, hrest, rfl⟩
      exact .cons hpair hrest
    · intro h
      cases h with
      | cons hpair hrest => exact ⟨_, hpair, _, hrest, rfl⟩

/-- There is a pair of characters for each byte, and none of them is beyond ASCII. -/
theorem Spells.shape (h : Spells bs cs) : cs.length = 2 * bs.length ∧ ∀ c ∈ cs, c.toNat < 128 := by
  have hascii {c : Char} {n : Nat} (hn : n < 16) (hc : c.toLower = hexDigit n) : c.toNat < 128 :=
    toNat_lt_of_toLower (hc ▸ (hexDigit_lower n hn).2.1)
  induction h with
  | nil => exact ⟨rfl, List.forall_mem_nil _⟩
  | @cons x bs a b cs pair rest ih =>
    obtain ⟨hlength, hall⟩ := ih
    have hx : x.toNat < 256 := x.toNat_lt
    refine ⟨by rw [List.length_cons, List.length_cons, hlength, List.length_cons]; omega, ?_⟩
    refine List.forall_mem_cons.mpr ⟨?_, List.forall_mem_cons.mpr ⟨hascii (by omega) pair.low, hall⟩⟩
    obtain hdigit | ⟨rfl, -⟩ := pair.high
    · exact hascii (by omega) hdigit
    · decide

theorem toList_hexOfBytes_cons (x : UInt8) (bs : List UInt8) : (hexOfBytes (x :: bs)).toList =
    hexDigit (x.toNat / 16) :: hexDigit (x.toNat % 16) :: (hexOfBytes bs).toList := by
  simp only [hexOfBytes, String.toList_ofList, List.flatMap_cons]
  rfl

theorem map_toLower_hexOfBytes (bs : List UInt8) : (hexOfBytes bs).toList.map Char.toLower = (hexOfBytes bs).toList := by
  induction bs with
  | nil => rfl
  | cons x bs ih =>
    have hx : x.toNat < 256 := x.toNat_lt
    rw [toList_hexOfBytes_cons, List.map_cons, List.map_cons, ih, (hexDigit_lower (x.toNat / 16) (by omega)).1,
      (hexDigit_lower (x.toNat % 16) (by omega)).1]

theorem map_toLower_eq_iff : cs.map Char.toLower = (hexOfBytes bs).toList ↔ Spells bs cs ∧ '+' ∉ cs := by
  induction bs generalizing cs with
  | nil =>
    constructor
    · intro h
      rw [List.map_eq_nil_iff.mp h]
      exact ⟨.nil, List.not_mem_nil⟩
    · rintro ⟨hspells, -⟩
      cases hspells
      rfl
  | cons x bs ih =>
    have hx : x.toNat < 256 := x.toNat_lt
    rw [toList_hexOfBytes_cons]
    constructor
    · intro h
      obtain ⟨a, cs, rfl, ha, h⟩ := List.map_eq_cons_iff.mp h
      obtain ⟨b, cs, rfl, hb, h⟩ := List.map_eq_cons_iff.mp h
      obtain ⟨hrest, hnone⟩ := ih.mp h
      refine ⟨.cons ⟨.inl ha, hb⟩ hrest, ?_⟩
      simp only [List.mem_cons, not_or]
      exact ⟨plus_ne_of_toLower (by omega) ha, plus_ne_of_toLower (by omega) hb, hnone⟩
    · rintro ⟨hspells, hnone⟩
      cases hspells with
      | cons pair rest =>
        simp only [List.mem_cons, not_or] at hnone
        rw [List.map_cons, List.map_cons, pair.high.resolve_right fun h => hnone.1 h.1.symm, pair.low,
          ih.mpr ⟨rest, hnone.2.2⟩]

/-- The hexadecimal text in either letter case is what has no plus sign. -/
theorem sameIgnoringCase_iff {digits : String} :
    sameIgnoringCase digits (hexOfBytes bs) = true ↔ Spells bs digits.toList ∧ '+' ∉ digits.toList := by
  rw [sameIgnoringCase, beq_iff_eq, map_toLower_hexOfBytes, map_toLower_eq_iff]

def plussed (bs : List UInt8) : List Char :=
  bs.flatMap fun x => [if x.toNat < 16 then '+' else hexDigit (x.toNat / 16), hexDigit (x.toNat % 16)]

theorem spells_plussed (bs : List UInt8) : Spells bs (plussed bs) := by
  induction bs with
  | nil => exact .nil
  | cons x bs ih =>
    have hx : x.toNat < 256 := x.toNat_lt
    refine .cons ⟨?_, (hexDigit_lower _ (by omega)).1⟩ ih
    split
    · rename_i hsmall
      exact .inr ⟨rfl, hsmall⟩
    · exact .inl (hexDigit_lower _ (by omega)).1

/-- A plus sign may stand somewhere exactly when a byte is below sixteen. -/
theorem exists_plus_iff : (∃ cs, Spells bs cs ∧ '+' ∈ cs) ↔ ∃ x ∈ bs, x.toNat < 16 := by
  constructor
  · rintro ⟨cs, hspells, hplus⟩
    induction hspells with
    | nil => cases hplus
    | @cons x bs a b cs pair rest ih =>
      have hx : x.toNat < 256 := x.toNat_lt
      obtain rfl | hplus := List.mem_cons.mp hplus
      · obtain hdigit | ⟨-, hsmall⟩ := pair.high
        · exact absurd rfl (plus_ne_of_toLower (by omega) hdigit)
        · exact ⟨x, List.mem_cons_self, hsmall⟩
      · obtain rfl | hplus := List.mem_cons.mp hplus
        · exact absurd rfl (plus_ne_of_toLower (by omega) pair.low)
        · obtain ⟨y, hy, hsmall⟩ := ih hplus
          exact ⟨y, List.mem_cons_of_mem x hy, hsmall⟩
  · rintro ⟨x, hx, hsmall⟩
    refine ⟨plussed bs, spells_plussed bs, List.mem_flatMap.mpr ⟨x, hx, ?_⟩⟩
    rw [if_pos hsmall]
    exact List.mem_cons_self

end Pairs

section Slices
variable {cs : List Char}

def splitBytes? : Nat → List Char → Option (List Char × List Char)
  | 0, cs => some ([], cs)
  | _ + 1, [] => none
  | n + 1, c :: cs =>
    if c.utf8Size ≤ n + 1 then (splitBytes? (n + 1 - c.utf8Size) cs).map fun p => (c :: p.1, p.2) else none

def slice? (start stop : Nat) (cs : List Char) : Option (List Char) := do
  let (_, rest) ← splitBytes? start cs
  let (inner, _) ← splitBytes? (stop - start) rest
  return inner

def parseByte? (cs : List Char) : Option UInt8 :=
  let digits := match cs with
    | '+' :: r => r
    | r => r
  if digits.isEmpty then none
  else (digits.mapM hexValue?).bind fun ds =>
    let n := ds.foldl (fun n d => 16 * n + d) 0
    if n < 256 then some (UInt8.ofNat n) else none

def decodeSlices? (cs : List Char) (start : Nat) : Nat → Option (Option (List UInt8))
  | 0 => some (some [])
  | n + 1 => do
    match parseByte? (← slice? start (start + 2) cs) with
    | none => return none
    | some x => return (← decodeSlices? cs (start + 2) n).map (x :: ·)

/-- Decoding by byte offsets; only digits of one byte each get as far as the slices. -/
def decode? (cs : List Char) : Option (Option (List UInt8)) :=
  let size := (cs.map Char.utf8Size).sum
  if size % 2 ≠ 0 || !cs.all (·.toNat < 128) then some none else decodeSlices? cs 0 (size / 2)

theorem utf8Size_eq_one {c : Char} (h : c.toNat < 128) : c.utf8Size = 1 := by
  rw [Char.utf8Size_eq_one_iff]
  exact Nat.le_of_lt_succ h

theorem splitBytes?_ascii (h : ∀ c ∈ cs, c.toNat < 128) {n : Nat} (hn : n ≤ cs.length) :
    splitBytes? n cs = some (cs.take n, cs.drop n) := by
  induction cs generalizing n with
  | nil =>
    obtain rfl : n = 0 := Nat.le_zero.mp hn
    rfl
  | cons c cs ih =>
    obtain ⟨hc, hcs⟩ := List.forall_mem_cons.mp h
    cases n with
    | zero => rfl
    | succ n =>
      rw [splitBytes?, utf8Size_eq_one hc, if_pos (by omega), Nat.add_sub_cancel, ih hcs (Nat.le_of_succ_le_succ hn)]
      rfl

theorem parseByte?_pair (a b : Char) : parseByte? [a, b] = pairValue? a b := by
  have hsmall {c : Char} {n : Nat} (h : hexValue? c = some n) : n < 16 := (hexValue?_eq_some.mp h).1
  unfold parseByte? pairValue?
  by_cases ha : a = '+'
  · subst ha
    cases hb : hexValue? b with
    | none => simp [hb]
    | some y =>
      have hy : y < 256 := (hsmall hb).trans (by decide)
      simp [hb, hy]
  · cases hu : hexValue? a with
    | none => simp [ha, hu]
    | some x =>
      cases hb : hexValue? b with
      | none => simp [ha, hu, hb]
      | some y =>
        have hxy : 16 * x + y < 256 := by
          have := hsmall hu
          have := hsmall hb
          omega
        simp [ha, hu, hb, hxy]

theorem decodeSlices?_eq (h : ∀ c ∈ cs, c.toNat < 128) {start n : Nat} (hn : start + 2 * n = cs.length) :
    decodeSlices? cs start n = some (pairs? (cs.drop start)) := by
  induction n generalizing start with
  | zero =>
    rw [List.drop_of_length_le (by omega)]
    rfl
  | succ n ih =>
    have hdrop : ∀ c ∈ cs.drop start, c.toNat < 128 := fun c hc => h c (List.mem_of_mem_drop hc)
    obtain ⟨a, b, r, hr⟩ : ∃ a b r, cs.drop start = a :: b :: r := by
      have hlength : (cs.drop start).length = 2 * n + 2 := by
        rw [List.length_drop]
        omega
      obtain ⟨a, rest, hrest⟩ := List.exists_cons_of_length_eq_add_one hlength
      rw [hrest, List.length_cons, Nat.add_right_cancel_iff] at hlength
      obtain ⟨b, r, rfl⟩ := List.exists_cons_of_length_eq_add_one hlength
      exact ⟨a, b, r, hrest⟩
    have hrest : cs.drop (start + 2) = r := by
      rw [← List.drop_drop, hr]
      rfl
    have hslice : slice? start (start + 2) cs = some [a, b] := by
      rw [slice?, splitBytes?_ascii h (by omega)]
      simp only [Option.bind_eq_bind, Option.bind_some]
      rw [splitBytes?_ascii hdrop (by rw [List.length_drop]; omega), hr, Nat.add_sub_cancel_left]
      rfl
    rw [decodeSlices?, hslice, ih (by omega), hrest, hr]
    simp only [Option.bind_eq_bind, Option.bind_some, parseByte?_pair, pairs?]
    cases hp : pairValue? a b with
    | none => rfl
    | some x => cases pairs? r <;> rfl

/-- No text is cut within a character, and the pairs are those of the characters. -/
theorem decode?_eq (cs : List Char) : decode? cs = some (pairs? cs) := by
  unfold decode?
  by_cases hascii : ∀ c ∈ cs, c.toNat < 128
  · have hsize : (cs.map Char.utf8Size).sum = cs.length := by
      rw [List.map_congr_left fun c hc => utf8Size_eq_one (hascii c hc), List.map_const', List.sum_replicate, smul_eq_mul,
        Nat.mul_one]
    by_cases heven : cs.length % 2 = 0
    · have hall : cs.all (·.toNat < 128) = true := by simpa using hascii
      rw [hsize, hall, if_neg (by simp [heven]), decodeSlices?_eq hascii (by omega), List.drop_zero]
    · rw [hsize, if_pos (by simp [heven])]
      cases hp : pairs? cs with
      | none => rfl
      | some bs =>
        have hlength := (pairs?_eq_some.mp hp).shape.1
        omega
  · have hall : cs.all (·.toNat < 128) = false := by simpa using hascii
    rw [hall, if_pos (by simp)]
    cases hp : pairs? cs with
    | none => rfl
    | some bs => exact absurd (pairs?_eq_some.mp hp).shape.2 hascii

end Slices

section Checking
variable {secret body : List UInt8} {text : String}

theorem length_hmac (key message : List UInt8) : (Sha256.hmac key message).length = 32 := by
  simp [Sha256.hmac, Sha256.hash, Sha256.State.bytes, Sha256.bytesOfWord]

theorem length_hexOfBytes (bs : List UInt8) : (hexOfBytes bs).length = 2 * bs.length := by
  have hshape := (sameIgnoringCase_iff.mp (beq_self_eq_true ((hexOfBytes bs).toList.map Char.toLower))).1.shape.1
  rwa [String.length_toList] at hshape

def unschemed (text : String) : List Char := (after? scheme.toList text.toList).getD text.toList

theorem verify_some : verify secret body (some text) = .ok () ∧ pairs? (unschemed text) = some (Sha256.hmac secret body) ∨
    verify secret body (some text) = .error .mismatch ∧ pairs? (unschemed text) ≠ some (Sha256.hmac secret body) := by
  simp only [verify]
  rw [show (after? scheme.toList text.toList).getD text.toList = unschemed text from rfl]
  cases hpairs : pairs? (unschemed text) with
  | none => exact .inr ⟨rfl, fun h => by cases h⟩
  | some given =>
    by_cases hgiven : given = Sha256.hmac secret body
    · exact .inl ⟨if_pos (constantTimeEq_iff.mpr hgiven.symm), congrArg some hgiven⟩
    · exact .inr ⟨if_neg fun h => hgiven (constantTimeEq_iff.mp h).symm, fun h => hgiven (Option.some.inj h)⟩

theorem verify_eq_ok : verify secret body (some text) = .ok () ↔ Spells (Sha256.hmac secret body) (unschemed text) := by
  rw [← pairs?_eq_some]
  obtain ⟨hverify, hpairs⟩ | ⟨hverify, hpairs⟩ := @verify_some secret body text
  · exact iff_of_true hverify hpairs
  · exact iff_of_false (by rw [hverify]; exact nofun) hpairs

/-- The scheme is no hexadecimal text, so that digits stand after it or are the whole text. -/
theorem spells_unschemed {bs : List UInt8} :
    Spells bs (unschemed text) ↔ ∃ digits, (text = digits ∨ text = scheme ++ digits) ∧ Spells bs digits.toList := by
  constructor
  · intro h
    cases hafter : after? scheme.toList text.toList with
    | none =>
      rw [unschemed, hafter, Option.getD_none] at h
      exact ⟨text, .inl rfl, h⟩
    | some rest =>
      rw [unschemed, hafter, Option.getD_some] at h
      refine ⟨String.ofList rest, .inr (String.toList_injective ?_), by rwa [String.toList_ofList]⟩
      rw [String.toList_append, String.toList_ofList, after?_eq_some.mp hafter]
  · rintro ⟨digits, rfl | rfl, h⟩
    · suffices hafter : after? scheme.toList text.toList = none by
        rwa [unschemed, hafter, Option.getD_none]
      by_contra hsome
      obtain ⟨rest, hrest⟩ := Option.ne_none_iff_exists'.mp hsome
      rw [after?_eq_some.mp hrest] at h
      cases bs with
      | nil => cases h
      | cons x bs =>
        cases h with
        | @cons x bs a b cs pair hashed =>
          -- The scheme begins with an "s", which is no digit.
          have hs : ∀ n < 16, 's'.toLower ≠ hexDigit n := by decide
          have hx : x.toNat < 256 := x.toNat_lt
          obtain hdigit | ⟨hplus, -⟩ := pair.high
          · exact hs _ (by omega) hdigit
          · exact absurd hplus (by decide)
    · rwa [unschemed, String.toList_append, Json.after?_append, Option.getD_some]

def verifyByOffsets (secret body : List UInt8) : Option String → Option (Except SignatureError Unit)
  | none => some (.error .missing)
  | some text => (decode? (unschemed text)).map fun given =>
    if given = some (Sha256.hmac secret body) then .ok () else .error .mismatch

theorem verifyByOffsets_eq (secret body : List UInt8) (header : Option String) :
    verifyByOffsets secret body header = some (verify secret body header) := by
  cases header with
  | none => rfl
  | some text =>
    rw [verifyByOffsets, decode?_eq, Option.map_some]
    obtain ⟨hverify, hpairs⟩ | ⟨hverify, hpairs⟩ := @verify_some secret body text
    · rw [if_pos hpairs, hverify]
    · rw [if_neg hpairs, hverify]

def Signs (secret body : List UInt8) (text : String) : Prop :=
  ∃ digits, (text = digits ∨ text = scheme ++ digits) ∧ sameIgnoringCase digits (hexOfBytes (Sha256.hmac secret body)) = true

theorem signs_digest (secret body : List UInt8) : Signs secret body (hexOfBytes (Sha256.hmac secret body)) :=
  ⟨_, .inl rfl, beq_self_eq_true _⟩

theorem signs_sign (secret body : List UInt8) : Signs secret body (sign secret body) :=
  ⟨_, .inr rfl, beq_self_eq_true _⟩

theorem plus_mem_iff {digits : String} (h : text = digits ∨ text = scheme ++ digits) :
    '+' ∈ text.toList ↔ '+' ∈ digits.toList := by
  obtain rfl | rfl := h
  · exact Iff.rfl
  · rw [String.toList_append, List.mem_append, or_iff_right (by decide)]

theorem signs_iff : Signs secret body text ↔ verify secret body (some text) = .ok () ∧ '+' ∉ text.toList := by
  simp only [Signs, sameIgnoringCase_iff, verify_eq_ok, spells_unschemed]
  constructor
  · rintro ⟨digits, htext, hspells, hnone⟩
    exact ⟨⟨digits, htext, hspells⟩, (plus_mem_iff htext).not.mpr hnone⟩
  · rintro ⟨⟨digits, htext, hspells⟩, hnone⟩
    exact ⟨digits, htext, hspells, (plus_mem_iff htext).not.mp hnone⟩

/-- Every text that signs the body is accepted, and no other text is as long as no byte of the digest is below sixteen:
in place of the zero that such a byte begins with, a plus sign is accepted as well. The check reaches its answer for
every text, which is a mismatch when it is not accepted. -/
theorem verify_judges (secret body : List UInt8) :
    verify secret body none = .error .missing ∧ verify secret body (some (sign secret body)) = .ok () ∧
      verify secret body (some (hexOfBytes (Sha256.hmac secret body))) = .ok () ∧
      (hexOfBytes (Sha256.hmac secret body)).length = 64 ∧
      (∀ text, (verify secret body (some text) = .ok () ↔
          ∃ digits, (text = digits ∨ text = scheme ++ digits) ∧ Spells (Sha256.hmac secret body) digits.toList) ∧
        (Signs secret body text ↔ verify secret body (some text) = .ok () ∧ '+' ∉ text.toList) ∧
        (verify secret body (some text) = .ok () ∨ verify secret body (some text) = .error .mismatch)) ∧
      (∀ header, verifyByOffsets secret body header = some (verify secret body header)) ∧
      ((∀ text, verify secret body (some text) = .ok () ↔ Signs secret body text) ↔
        ∀ x ∈ Sha256.hmac secret body, 16 ≤ x.toNat) := by
  refine ⟨rfl, (signs_iff.mp (signs_sign secret body)).1, (signs_iff.mp (signs_digest secret body)).1, ?_,
    fun text => ⟨verify_eq_ok.trans spells_unschemed, signs_iff, ?_⟩, verifyByOffsets_eq secret body, ?_⟩
  · rw [length_hexOfBytes, length_hmac]
  · exact verify_some.imp And.left And.left
  · have hsmall : (∃ cs, Spells (Sha256.hmac secret body) cs ∧ '+' ∈ cs) ↔ _ := exists_plus_iff
    constructor
    · intro h x hx
      by_contra hlow
      obtain ⟨cs, hspells, hplus⟩ := hsmall.mpr ⟨x, hx, not_le.mp hlow⟩
      have haccepted : verify secret body (some (String.ofList cs)) = .ok () :=
        verify_eq_ok.mpr (spells_unschemed.mpr ⟨_, .inl rfl, by rwa [String.toList_ofList]⟩)
      refine (signs_iff.mp ((h _).mp haccepted)).2 ?_
      rwa [String.toList_ofList]
    · intro h text
      refine ⟨fun haccepted => signs_iff.mpr ⟨haccepted, fun hplus => ?_⟩, fun hsigns => (signs_iff.mp hsigns).1⟩
      obtain ⟨digits, htext, hspells⟩ := spells_unschemed.mp (verify_eq_ok.mp haccepted)
      obtain ⟨x, hx, hlow⟩ := hsmall.mp ⟨_, hspells, (plus_mem_iff htext).mp hplus⟩
      exact absurd (h x hx) (not_le.mpr hlow)

/-- A plus sign in place of the zero of the byte 4. -/
theorem verify_plus :
    verify (bytes "Jefe") (bytes "what do ya want for nothing?")
        (some "sha256=5bdcc146bf60754e6a+42426089575c75a003f089d2739839dec58b964ec3843") = .ok () ∧
      ¬ Signs (bytes "Jefe") (bytes "what do ya want for nothing?")
        "sha256=5bdcc146bf60754e6a+42426089575c75a003f089d2739839dec58b964ec3843" := by
  constructor
  · refine verify_eq_ok.mpr (pairs?_eq_some.mp ?_)
    decide +kernel
  · rw [signs_iff]
    exact fun h => h.2 (by decide +kernel)

end Checking
end Signature
end Outreach
