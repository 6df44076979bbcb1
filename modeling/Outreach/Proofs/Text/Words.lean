import Mathlib
import Outreach.Proofs.Text.Segments

/-! Words with white space between them, and around them or not. -/
namespace Outreach.Text
variable {s t w before after : List Char} {ws : List (List Char)} {c : Char}

structure IsWord (w : List Char) : Prop where
  ne_nil : w ≠ []
  solid : ∀ c ∈ w, isBlank c = false

instance (w : List Char) : Decidable (IsWord w) :=
  decidable_of_iff (w ≠ [] ∧ w.all (!isBlank ·) = true)
    ⟨fun h => ⟨h.1, by simpa using h.2⟩, fun h => ⟨h.ne_nil, by simpa using h.solid⟩⟩

/-- The text is made of the words in that order, with white space at least between them. -/
inductive Spaced : List Char → List (List Char) → Prop where
  | nil : Spaced [] []
  | blank {c : Char} {s : List Char} {ws : List (List Char)} (hc : isBlank c = true) (rest : Spaced s ws) : Spaced (c :: s) ws
  | word {w s : List Char} {ws : List (List Char)} (hw : IsWord w) (apart : ∀ c ∈ s.head?, isBlank c = true)
    (rest : Spaced s ws) : Spaced (w ++ s) (w :: ws)

theorem words_blank (hc : isBlank c = true) (s : List Char) : words (c :: s) = words s := by
  rw [words, splitWhere, if_pos hc]
  rfl

theorem splitWhere_append {p : Char → Bool} (hw : ∀ c ∈ w, p c = false) {piece : List Char} {pieces : List (List Char)}
    (hs : splitWhere p s = piece :: pieces) : splitWhere p (w ++ s) = (w ++ piece) :: pieces := by
  induction w with
  | nil => exact hs
  | cons c w ih =>
    obtain ⟨hc, hw⟩ := List.forall_mem_cons.mp hw
    rw [List.cons_append, splitWhere, if_neg (by simp [hc]), ih hw]
    rfl

theorem words_append (hw : IsWord w) (apart : ∀ c ∈ s.head?, isBlank c = true) : words (w ++ s) = w :: words s := by
  have hsplit : ∃ pieces, splitWhere isBlank s = [] :: pieces := by
    cases s with
    | nil => exact ⟨[], rfl⟩
    | cons c r => exact ⟨splitWhere isBlank r, if_pos (apart c rfl)⟩
  obtain ⟨pieces, hpieces⟩ := hsplit
  rw [words, splitWhere_append hw.solid hpieces, List.append_nil, words, hpieces]
  simp [hw.ne_nil]

theorem spaced_words (s : List Char) : Spaced s (words s) := by
  cases s with
  | nil => exact .nil
  | cons c r =>
    cases hc : isBlank c with
    | true =>
      rw [words_blank hc]
      exact .blank hc (spaced_words r)
    | false =>
      have happ : (c :: r).takeWhile (!isBlank ·) ++ (c :: r).dropWhile (!isBlank ·) = c :: r := List.takeWhile_append_dropWhile
      have hword : IsWord ((c :: r).takeWhile (!isBlank ·)) :=
        ⟨by simp [hc], fun d hd => by simpa using List.mem_takeWhile_imp hd⟩
      have hapart : ∀ d ∈ ((c :: r).dropWhile (!isBlank ·)).head?, isBlank d = true := fun d hd => by
        have hhead := List.head?_dropWhile_not (!isBlank ·) (c :: r)
        rw [Option.mem_def.mp hd] at hhead
        simpa using hhead
      have hshorter : ((c :: r).dropWhile (!isBlank ·)).length ≤ r.length := by
        rw [List.dropWhile_cons_of_pos (by simp [hc])]
        exact (List.dropWhile_sublist _).length_le
      have hspaced := Spaced.word hword hapart (spaced_words ((c :: r).dropWhile (!isBlank ·)))
      rwa [← words_append hword hapart, happ] at hspaced
termination_by s.length

theorem spaced_iff : Spaced s ws ↔ words s = ws := by
  refine ⟨fun h => ?_, fun h => h ▸ spaced_words s⟩
  induction h with
  | nil => rfl
  | blank hc _ ih => rw [words_blank hc, ih]
  | word hw apart _ ih => rw [words_append hw apart, ih]

theorem Spaced.unique {vs : List (List Char)} (h : Spaced s ws) (h' : Spaced s vs) : ws = vs :=
  (spaced_iff.mp h).symm.trans (spaced_iff.mp h')

theorem Spaced.mem (h : Spaced s ws) : ∀ c ∈ s, isBlank c = true ∨ ∃ w ∈ ws, c ∈ w := by
  induction h with
  | nil => exact List.forall_mem_nil _
  | blank hc _ ih => exact List.forall_mem_cons.mpr ⟨.inl hc, ih⟩
  | word _ _ _ ih =>
    refine List.forall_mem_append.mpr ⟨fun c hc => .inr ⟨_, List.mem_cons_self, hc⟩, fun c hc => ?_⟩
    exact (ih c hc).imp_right fun ⟨w, hw, hcw⟩ => ⟨w, List.mem_cons_of_mem _ hw, hcw⟩

theorem IsTrimmed.surrounded (h : IsTrimmed s t) (hbefore : ∀ c ∈ before, isBlank c = true)
    (hafter : ∀ c ∈ after, isBlank c = true) : IsTrimmed (before ++ (s ++ after)) t := by
  obtain ⟨before', after', rfl, hbefore', hafter', hends⟩ := h
  exact ⟨before ++ before', after' ++ after, by simp, List.forall_mem_append.mpr ⟨hbefore, hbefore'⟩,
    List.forall_mem_append.mpr ⟨hafter', hafter⟩, hends⟩

theorem trimChars_surrounded (hbefore : ∀ c ∈ before, isBlank c = true) (hafter : ∀ c ∈ after, isBlank c = true)
    (s : List Char) : trimChars (before ++ (s ++ after)) = trimChars s :=
  isTrimmed_iff.mp ((isTrimmed_trimChars s).surrounded hbefore hafter)

theorem isTrimmed_self (hhead : ∀ c ∈ s.head?, isBlank c = false) (hlast : ∀ c ∈ s.getLast?, isBlank c = false) :
    IsTrimmed s s :=
  ⟨[], [], by simp, List.forall_mem_nil _, List.forall_mem_nil _, hhead, hlast⟩

theorem IsTrimmed.self (h : IsTrimmed s t) : IsTrimmed t t := by
  obtain ⟨-, -, -, -, -, hhead, hlast⟩ := h
  exact isTrimmed_self hhead hlast

theorem spaced_intercalate (h : ∀ w ∈ ws, IsWord w) : Spaced ([' '].intercalate ws) ws := by
  induction ws with
  | nil => exact .nil
  | cons w ws ih =>
    obtain ⟨hw, hws⟩ := List.forall_mem_cons.mp h
    cases ws with
    | nil => simpa using Spaced.word hw (by simp) Spaced.nil
    | cons v ws => exact .word hw (by simp [isBlank]) (.blank rfl (ih hws))

theorem head?_intercalate (h : ∀ w ∈ ws, IsWord w) : ∀ c ∈ ([' '].intercalate ws).head?, isBlank c = false := by
  cases ws with
  | nil => simp
  | cons w ws =>
    obtain ⟨hw, -⟩ := List.forall_mem_cons.mp h
    obtain ⟨c, r, rfl⟩ := List.exists_cons_of_ne_nil hw.ne_nil
    have hc : isBlank c = false := hw.solid c List.mem_cons_self
    cases ws <;> simpa using hc

theorem getLast?_intercalate (h : ∀ w ∈ ws, IsWord w) : ∀ c ∈ ([' '].intercalate ws).getLast?, isBlank c = false := by
  induction ws with
  | nil => simp
  | cons w ws ih =>
    obtain ⟨hw, hws⟩ := List.forall_mem_cons.mp h
    cases ws with
    | nil =>
      rw [List.intercalate_singleton]
      exact fun c hc => hw.solid c (List.mem_of_getLast? hc)
    | cons v ws =>
      have hv : v ≠ [] := (hws v List.mem_cons_self).ne_nil
      have hrest : [' '].intercalate (v :: ws) ≠ [] := by cases ws <;> simp [hv]
      rw [List.intercalate_cons_cons, List.getLast?_append_of_ne_nil _ hrest]
      exact ih hws

theorem isTrimmed_intercalate (h : ∀ w ∈ ws, IsWord w) : IsTrimmed ([' '].intercalate ws) ([' '].intercalate ws) :=
  isTrimmed_self (head?_intercalate h) (getLast?_intercalate h)

theorem Spaced.map {f : Char → Char} (hf : ∀ c, isBlank (f c) = isBlank c) (h : Spaced s ws) :
    Spaced (s.map f) (ws.map (List.map f)) := by
  induction h with
  | nil => exact .nil
  | blank hc _ ih => exact .blank ((hf _).trans hc) ih
  | word hw apart _ ih =>
    rw [List.map_append]
    refine .word ⟨by simpa using hw.ne_nil, ?_⟩ ?_ ih
    · simpa [hf] using hw.solid
    · simpa [hf] using apart

end Outreach.Text
