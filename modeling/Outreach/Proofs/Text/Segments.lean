import Mathlib
import Outreach.Text.Basic

/-! White space around a text, the segments of a dotted text, and the numerals of indices. -/
namespace Outreach.Text
variable {s inner : List Char} {segments : List (List Char)}

def IsTrimmed (s inner : List Char) : Prop :=
  ∃ before after, s = before ++ (inner ++ after) ∧ (∀ c ∈ before, isBlank c = true) ∧ (∀ c ∈ after, isBlank c = true) ∧
    (∀ c ∈ inner.head?, isBlank c = false) ∧ ∀ c ∈ inner.getLast?, isBlank c = false

theorem head?_trimStart (s : List Char) : ∀ c ∈ (trimStart s).head?, isBlank c = false := by
  intro c hc
  have hhead := List.head?_dropWhile_not isBlank s
  rw [Option.mem_def, trimStart] at hc
  rwa [hc] at hhead

theorem exists_blank (s : List Char) : ∃ before, s = before ++ trimStart s ∧ ∀ c ∈ before, isBlank c = true :=
  ⟨s.takeWhile isBlank, List.takeWhile_append_dropWhile.symm, fun _ => List.mem_takeWhile_imp⟩

theorem trimStart_append {before : List Char} (hbefore : ∀ c ∈ before, isBlank c = true)
    (hs : ∀ c ∈ s.head?, isBlank c = false) : trimStart (before ++ s) = s := by
  rw [trimStart, List.dropWhile_append_of_pos hbefore]
  cases s with
  | nil => rfl
  | cons c r => rw [List.dropWhile_cons_of_neg (by simp [hs c rfl])]

theorem isTrimmed_trimChars (s : List Char) : IsTrimmed s (trimChars s) := by
  obtain ⟨before, hs, hbefore⟩ := exists_blank s
  obtain ⟨after, hrest, hafter⟩ := exists_blank (trimStart s).reverse
  have hinner : trimStart s = trimChars s ++ after.reverse := by
    rw [trimChars, ← List.reverse_append, ← hrest, List.reverse_reverse]
  refine ⟨before, after.reverse, by rw [← hinner, ← hs], hbefore, by simpa using hafter, fun c hc => ?_, ?_⟩
  · refine head?_trimStart s c ?_
    rw [hinner]
    exact List.mem_head?_append_of_mem_head? hc
  · rw [trimChars, List.getLast?_reverse]
    exact head?_trimStart _

theorem isTrimmed_iff : IsTrimmed s inner ↔ trimChars s = inner := by
  refine ⟨?_, fun h => h ▸ isTrimmed_trimChars s⟩
  rintro ⟨before, after, rfl, hbefore, hafter, hhead, hlast⟩
  cases inner with
  | nil =>
    have hblank : trimStart (before ++ ([] ++ after)) = [] :=
      List.dropWhile_eq_nil_iff.mpr (List.forall_mem_append.mpr ⟨hbefore, hafter⟩)
    rw [trimChars, hblank]
    rfl
  | cons c r =>
    rw [trimChars, trimStart_append hbefore (by simpa using hhead), List.reverse_append,
      trimStart_append (by simpa using hafter) (by rwa [List.head?_reverse]), List.reverse_reverse]

def IsDotted (s : List Char) (segments : List (List Char)) : Prop :=
  segments ≠ [] ∧ (∀ segment ∈ segments, '.' ∉ segment) ∧ ['.'].intercalate segments = s

theorem splitWhere_eq (p : Char → Bool) (s : List Char) : splitWhere p s = s.splitOnP p := by
  induction s with
  | nil => rw [List.splitOnP_nil, splitWhere]
  | cons c r ih =>
    rw [List.splitOnP_cons_eq_if_modifyHead, splitWhere, ih]
    split
    · rfl
    · cases hsplit : r.splitOnP p with
      | nil => exact absurd hsplit (List.splitOnP_ne_nil p r)
      | cons w ws => rfl

theorem not_mem_of_mem_splitWhere {p : Char → Bool} (h : inner ∈ splitWhere p s) : ∀ c ∈ inner, p c = false := by
  induction s generalizing inner with
  | nil => simp_all [splitWhere]
  | cons c r ih =>
    rw [splitWhere] at h
    split at h
    · obtain rfl | h := List.mem_cons.mp h
      · exact List.forall_mem_nil _
      · exact ih h
    · rename_i hc
      split at h <;> rename_i hsplit
      · exact absurd (splitWhere_eq p r ▸ hsplit) (List.splitOnP_ne_nil p r)
      · rw [hsplit] at ih
        obtain rfl | h := List.mem_cons.mp h
        · exact List.forall_mem_cons.mpr ⟨by simpa using hc, ih List.mem_cons_self⟩
        · exact ih (List.mem_cons_of_mem _ h)

theorem isDotted_iff : IsDotted s segments ↔ splitAt '.' s = segments := by
  have hsplit : splitAt '.' s = s.splitOn '.' := splitWhere_eq _ s
  constructor
  · rintro ⟨hne, hdots, rfl⟩
    rw [hsplit, List.splitOn_intercalate '.' hdots hne]
  · rintro rfl
    refine ⟨hsplit ▸ List.splitOn_ne_nil '.' s, fun segment hmem hdot => ?_, by rw [hsplit, List.intercalate_splitOn]⟩
    exact absurd (not_mem_of_mem_splitWhere hmem '.' hdot) (by decide)

def IsIndex (s : List Char) (i : Nat) : Prop :=
  ∃ ds, (s = ds ∨ s = '+' :: ds) ∧ ds ≠ [] ∧ (∀ c ∈ ds, c.isDigit = true) ∧ digitsValue ds = i ∧ i < 2 ^ 64

theorem digits?_eq_some {i : Nat} : digits? s = some i ↔ s ≠ [] ∧ (∀ c ∈ s, c.isDigit = true) ∧ digitsValue s = i := by
  rw [digits?, Option.ite_none_right_eq_some]
  simp [and_assoc]

/-- A numeral below the bound, which may have a plus sign. -/
theorem natural?_eq_some {bound i : Nat} : natural? bound s = some i ↔
    ∃ ds, (s = ds ∨ s = '+' :: ds) ∧ ds ≠ [] ∧ (∀ c ∈ ds, c.isDigit = true) ∧ digitsValue ds = i ∧ i < bound := by
  have hbody (ds : List Char) : (digits? ds).filter (· < bound) = some i ↔
      ds ≠ [] ∧ (∀ c ∈ ds, c.isDigit = true) ∧ digitsValue ds = i ∧ i < bound := by
    rw [Option.filter_eq_some_iff, digits?_eq_some]
    simp [and_assoc]
  constructor
  · intro h
    unfold natural? at h
    split at h
    · exact ⟨_, .inr rfl, (hbody _).mp h⟩
    · exact ⟨_, .inl rfl, (hbody _).mp h⟩
  · rintro ⟨ds, rfl | rfl, hne, hdigits, hvalue⟩
    · unfold natural?
      split
      · exact absurd (hdigits '+' List.mem_cons_self) (by decide)
      · exact (hbody s).mpr ⟨hne, hdigits, hvalue⟩
    · exact (hbody ds).mpr ⟨hne, hdigits, hvalue⟩

theorem isIndex_iff {i : Nat} : IsIndex s i ↔ natural? (Nat.pow 2 64) s = some i := natural?_eq_some.symm

end Outreach.Text
