import Mathlib.Data.String.Basic
import Outreach.Keyed

/-! Storing keeps the keys ascending, and a list that ascends already is taken over as it is. -/
namespace Outreach.Keyed
variable {α : Type} {m : Keyed α} {k : String} {v : α} {e : String × α}

def Ascending (m : List (String × α)) : Prop := (m.map (·.1)).Pairwise (· < ·)

theorem ascending_nil : Ascending ([] : Keyed α) := List.Pairwise.nil

theorem ascending_cons {r : Keyed α} : Ascending (e :: r) ↔ (∀ f ∈ r, e.1 < f.1) ∧ Ascending r := by
  simp [Ascending]

theorem mem_put (h : e ∈ put k v m) : e = (k, v) ∨ e ∈ m := by
  induction m with
  | nil => simpa [put] using h
  | cons x r ih =>
    obtain ⟨k', v'⟩ := x
    simp only [put] at h
    split at h
    · simp only [List.mem_cons] at h ⊢
      tauto
    · split at h
      · simp only [List.mem_cons] at h ⊢
        tauto
      · simp only [List.mem_cons] at h ⊢
        tauto

theorem put_ascending (h : Ascending m) : Ascending (put k v m) := by
  induction m with
  | nil => simp [put, Ascending]
  | cons x r ih =>
    obtain ⟨k', v'⟩ := x
    obtain ⟨hlt, hr⟩ := ascending_cons.mp h
    simp only [put, beq_iff_eq]
    split
    · rename_i heq
      exact ascending_cons.mpr ⟨by simpa [heq] using hlt, hr⟩
    · rename_i hne
      split
      · rename_i hk
        refine ascending_cons.mpr ⟨?_, h⟩
        simp only [List.mem_cons, forall_eq_or_imp]
        exact ⟨hk, fun f hf => hk.trans (hlt f hf)⟩
      · rename_i hk
        refine ascending_cons.mpr ⟨fun f hf => ?_, ih hr⟩
        obtain rfl | hf := mem_put hf
        · exact lt_of_le_of_ne (not_lt.mp hk) (Ne.symm hne)
        · exact hlt f hf

theorem put_last (h : ∀ f ∈ m, f.1 < k) : put k v m = m ++ [(k, v)] := by
  induction m with
  | nil => rfl
  | cons x r ih =>
    obtain ⟨k', v'⟩ := x
    have hk : k' < k := h (k', v') (by simp)
    have hne : ¬ (k == k') = true := by simpa using hk.ne'
    rw [put, if_neg hne, if_neg (not_lt_of_gt hk), ih fun f hf => h f (by simp [hf])]
    rfl

theorem foldl_put_ascending (ms : List (String × α)) (h : Ascending m) :
    Ascending (ms.foldl (fun m e => put e.1 e.2 m) m) := by
  induction ms generalizing m with
  | nil => exact h
  | cons e ms ih => exact ih (put_ascending h)

theorem ofList_ascending (ms : List (String × α)) : Ascending (ofList ms) :=
  foldl_put_ascending ms List.Pairwise.nil

theorem mem_foldl_put {ms : List (String × α)} (h : e ∈ ms.foldl (fun m e => put e.1 e.2 m) m) :
    e ∈ m ∨ e ∈ ms := by
  induction ms generalizing m with
  | nil => exact .inl h
  | cons x ms ih =>
    obtain h | h := ih h
    · obtain rfl | h := mem_put h
      · simp
      · exact .inl h
    · simp [h]

theorem mem_ofList {ms : List (String × α)} (h : e ∈ ofList ms) : e ∈ ms := by
  simpa using mem_foldl_put h

theorem foldl_put_of_ascending {ms : List (String × α)} (h : Ascending (m ++ ms)) :
    ms.foldl (fun m e => put e.1 e.2 m) m = m ++ ms := by
  induction ms generalizing m with
  | nil => simp
  | cons e ms ih =>
    have hlt : ∀ f ∈ m, f.1 < e.1 := by
      intro f hf
      simp only [Ascending, List.map_append, List.pairwise_append] at h
      exact h.2.2 f.1 (List.mem_map_of_mem hf) e.1 (by simp)
    rw [List.foldl_cons, put_last hlt, ih (by simpa using h)]
    simp

theorem ofList_of_ascending {ms : List (String × α)} (h : Ascending ms) : ofList ms = ms :=
  foldl_put_of_ascending (m := []) h

theorem erase_ascending (h : Ascending m) (k : String) : Ascending (erase m k) :=
  List.Pairwise.sublist (List.filter_sublist.map _) h

theorem get?_cons (e : String × α) (m : Keyed α) (key : String) :
    get? (e :: m) key = if e.1 = key then some e.2 else get? m key := by
  rw [get?, List.find?_cons]
  by_cases h : e.1 = key
  · rw [if_pos h, h, beq_self_eq_true]
    rfl
  · rw [if_neg h, beq_false_of_ne h]
    rfl

theorem get?_append (m n : Keyed α) (key : String) : get? (m ++ n) key = (get? m key).or (get? n key) := by
  induction m with
  | nil => rfl
  | cons e m ih =>
    rw [List.cons_append, get?_cons, get?_cons, ih]
    split <;> rfl

theorem get?_put (k : String) (v : α) (m : Keyed α) (key : String) :
    get? (put k v m) key = if k = key then some v else get? m key := by
  induction m with
  | nil => exact get?_cons (k, v) [] key
  | cons x r ih =>
    obtain ⟨k', v'⟩ := x
    simp only [put, beq_iff_eq]
    split
    · rename_i heq
      rw [get?_cons, get?_cons, heq]
      split <;> rfl
    · rename_i hne
      split
      · exact get?_cons (k, v) ((k', v') :: r) key
      · rw [get?_cons, get?_cons, ih]
        by_cases hk : k' = key
        · rw [if_pos hk, if_pos hk, if_neg fun h => hne (h.trans hk.symm)]
        · rw [if_neg hk, if_neg hk]

theorem get?_erase (m : Keyed α) (k key : String) :
    get? (erase m k) key = if k = key then none else get? m key := by
  induction m with
  | nil => split <;> rfl
  | cons x r ih =>
    rw [erase] at ih ⊢
    rw [List.filter_cons, get?_cons]
    by_cases hx : x.1 = k
    · have hdrop : (x.1 != k) = false := by simp [hx]
      rw [hdrop, if_neg Bool.false_ne_true, ih, hx]
      split <;> rfl
    · have hkeep : (x.1 != k) = true := by simp [hx]
      rw [hkeep, if_pos rfl, get?_cons, ih]
      by_cases hkey : x.1 = key
      · rw [if_pos hkey, if_pos hkey, if_neg fun h => hx (hkey.trans h.symm)]
      · rw [if_neg hkey, if_neg hkey]

theorem mem_of_get? (h : get? m k = some v) : (k, v) ∈ m := by
  obtain ⟨e, he, rfl⟩ := Option.map_eq_some_iff.mp h
  have hk : e.1 = k := by simpa using List.find?_some he
  rw [← hk]
  exact List.mem_of_find?_eq_some he

theorem get?_eq_none (h : k ∉ m.map (·.1)) : get? m k = none := by
  rw [get?, Option.map_eq_none_iff, List.find?_eq_none]
  intro e he hk
  exact h (List.mem_map.mpr ⟨e, he, beq_iff_eq.mp hk⟩)

theorem get?_of_mem {m : List (String × α)} (hkeys : (m.map (·.1)).Nodup) (h : (k, v) ∈ m) : get? m k = some v := by
  induction m with
  | nil => cases h
  | cons e m ih =>
    obtain ⟨hnot, hm⟩ := List.nodup_cons.mp hkeys
    rw [get?_cons]
    obtain rfl | h := List.mem_cons.mp h
    · rw [if_pos rfl]
    · rw [if_neg fun heq => hnot (List.mem_map.mpr ⟨_, h, heq.symm⟩), ih hm h]

theorem get?_foldl_put {ms : List (String × α)} (hkeys : (ms.map (·.1)).Nodup) (key : String) :
    get? (ms.foldl (fun m e => put e.1 e.2 m) m) key = (get? ms key).or (get? m key) := by
  induction ms generalizing m with
  | nil => rfl
  | cons e ms ih =>
    obtain ⟨hnot, hms⟩ := List.nodup_cons.mp hkeys
    rw [List.foldl_cons, ih hms, get?_put, get?_cons]
    by_cases hk : e.1 = key
    · rw [if_pos hk, if_pos hk, get?_eq_none (hk ▸ hnot)]
      rfl
    · rw [if_neg hk, if_neg hk]

theorem get?_ofList {ms : List (String × α)} (hkeys : (ms.map (·.1)).Nodup) (key : String) :
    get? (ofList ms) key = get? ms key := by
  rw [ofList, get?_foldl_put hkeys]
  exact Option.or_none

theorem Ascending.nodup {ms : List (String × α)} (h : Ascending ms) : (ms.map (·.1)).Nodup :=
  h.imp fun hlt => hlt.ne

theorem get?_eq_none_of_lt (h : ∀ f ∈ m, k < f.1) : get? m k = none := by
  induction m with
  | nil => rfl
  | cons x r ih =>
    obtain ⟨hx, hr⟩ := List.forall_mem_cons.mp h
    rw [get?_cons, if_neg hx.ne', ih hr]

theorem erase_put (k : String) (v : α) (m : Keyed α) : erase (put k v m) k = erase m k := by
  induction m with
  | nil => simp [put, erase]
  | cons x r ih =>
    obtain ⟨k', v'⟩ := x
    rw [put]
    split
    · rename_i heq
      simp [erase, (beq_iff_eq.mp heq).symm]
    · split
      · simp [erase]
      · simp only [erase, List.filter_cons] at ih ⊢
        rw [ih]

theorem put_put (k : String) (v w : α) (m : Keyed α) : put k w (put k v m) = put k w m := by
  induction m with
  | nil => simp [put]
  | cons x r ih =>
    obtain ⟨k', v'⟩ := x
    by_cases heq : (k == k') = true
    · simp [put, heq]
    · by_cases hlt : k < k'
      · simp [put, heq, hlt]
      · simp [put, heq, hlt, ih]

theorem erase_of_lt (h : ∀ f ∈ m, k < f.1) : erase m k = m :=
  List.filter_eq_self.mpr fun f hf => bne_iff_ne.mpr (h f hf).ne'

theorem put_of_lt (v : α) (h : ∀ f ∈ m, k < f.1) : put k v m = (k, v) :: m := by
  cases m with
  | nil => rfl
  | cons f m =>
    have hf := h f List.mem_cons_self
    rw [put, if_neg fun heq => hf.ne (beq_iff_eq.mp heq), if_pos hf]

theorem put_erase (h : Ascending m) (k : String) (v : α) : put k v (erase m k) = put k v m := by
  induction m with
  | nil => rfl
  | cons e m ih =>
    obtain ⟨k', v'⟩ := e
    obtain ⟨hlt, hm⟩ := ascending_cons.mp h
    by_cases heq : k = k'
    · subst heq
      have herase : erase ((k, v') :: m) k = m := by
        rw [erase, List.filter_cons_of_neg (by simp)]
        exact erase_of_lt hlt
      rw [herase, put_of_lt v hlt, put, if_pos (beq_self_eq_true k)]
    · have hkey : ¬ (k == k') = true := fun h => heq (beq_iff_eq.mp h)
      have herase : erase ((k', v') :: m) k = (k', v') :: erase m k :=
        List.filter_cons_of_pos (bne_iff_ne.mpr (Ne.symm heq))
      by_cases hk : k < k'
      · rw [herase, erase_of_lt fun f hf => hk.trans (hlt f hf)]
      · rw [herase, put, if_neg hkey, if_neg hk, put, if_neg hkey, if_neg hk, ih hm]

theorem erase_erase (m : Keyed α) (k : String) : erase (erase m k) k = erase m k := by
  simp [erase]

def valuesOf (k : String) (pairs : List (String × α)) : List α := (pairs.filter (·.1 == k)).map (·.2)

theorem valuesOf_cons (k : String) (e : String × α) (pairs : List (String × α)) :
    valuesOf k (e :: pairs) = (if e.1 = k then [e.2] else []) ++ valuesOf k pairs := by
  unfold valuesOf
  by_cases hk : e.1 = k
  · rw [List.filter_cons_of_pos (by simpa using hk), if_pos hk, List.map_cons, List.singleton_append]
  · rw [List.filter_cons_of_neg (by simpa using hk), if_neg hk, List.nil_append]

theorem valuesOf_append (k : String) (pairs more : List (String × α)) :
    valuesOf k (pairs ++ more) = valuesOf k pairs ++ valuesOf k more := by
  rw [valuesOf, List.filter_append, List.map_append]
  rfl

theorem valuesOf_concat (k : String) (pairs : List (String × α)) (e : String × α) :
    valuesOf k (pairs ++ [e]) = valuesOf k pairs ++ if e.1 = k then [e.2] else [] := by
  rw [valuesOf_append, valuesOf_cons, show valuesOf k ([] : List (String × α)) = [] from rfl, List.append_nil]

end Outreach.Keyed
