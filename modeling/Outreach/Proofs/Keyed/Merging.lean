import Outreach.Proofs.Keyed

/-! Merging association lists. An ascending list is what is found in it, so merges that concern different keys commute. -/
namespace Outreach.Keyed
variable {α : Type} {m n old new : Keyed α} {k : String} {v : α}

theorem get?_self (k : String) (v : α) (m : Keyed α) : get? ((k, v) :: m) k = some v := by
  rw [get?_cons, if_pos rfl]

/-- Ascending lists in which the same is found are the same; by induction on both. -/
theorem ascending_ext (hm : Ascending m) (hn : Ascending n) (h : ∀ k, get? m k = get? n k) : m = n := by
  induction m generalizing n with
  | nil =>
    cases n with
    | nil => rfl
    | cons e n => cases (h e.1).trans (get?_self e.1 e.2 n)
  | cons e m ih =>
    cases n with
    | nil => cases (get?_self e.1 e.2 m).symm.trans (h e.1)
    | cons f n =>
      obtain ⟨hafter, hm⟩ := ascending_cons.mp hm
      obtain ⟨hafter', hn⟩ := ascending_cons.mp hn
      have hkey : e.1 = f.1 := by
        have hle : ¬ f.1 < e.1 := fun hlt => by
          cases ((h f.1).trans (get?_self f.1 f.2 n)).symm.trans (get?_eq_none_of_lt (List.forall_mem_cons.mpr
            ⟨hlt, fun g hg => hlt.trans (hafter g hg)⟩))
        have hge : ¬ e.1 < f.1 := fun hlt => by
          cases ((h e.1).symm.trans (get?_self e.1 e.2 m)).symm.trans (get?_eq_none_of_lt (List.forall_mem_cons.mpr
            ⟨hlt, fun g hg => hlt.trans (hafter' g hg)⟩))
        exact le_antisymm (not_lt.mp hle) (not_lt.mp hge)
      have hvalue : e.2 = f.2 := by
        have hfound := h e.1
        rw [get?_self e.1 e.2 m, hkey, get?_self f.1 f.2 n] at hfound
        exact Option.some.inj hfound
      have hrest : m = n := ih hm hn fun k => by
        have hfound := h k
        rw [get?_cons, get?_cons, ← hkey] at hfound
        split at hfound
        · rename_i hk
          rw [← hk, get?_eq_none_of_lt hafter, hkey, get?_eq_none_of_lt hafter']
        · exact hfound
      rw [Prod.ext hkey hvalue, hrest]

theorem merge_ascending (h : Ascending old) (new : Keyed α) : Ascending (merge old new) := foldl_put_ascending new h

theorem get?_merge (h : Ascending new) (old : Keyed α) (k : String) :
    get? (merge old new) k = (get? new k).or (get? old k) := get?_foldl_put h.nodup k

theorem get?_merge_of_none (h : get? new k = none) (old : Keyed α) : get? (merge old new) k = get? old k := by
  unfold merge
  induction new generalizing old with
  | nil => rfl
  | cons e new ih =>
    rw [get?_cons] at h
    split at h
    · cases h
    · rename_i hk
      rw [List.foldl_cons, ih h, get?_put, if_neg hk]

theorem merge_comm (hold : Ascending old) (hm : Ascending m) (hn : Ascending n)
    (h : ∀ k, get? m k = none ∨ get? n k = none) : merge (merge old m) n = merge (merge old n) m := by
  refine ascending_ext (merge_ascending (merge_ascending hold m) n) (merge_ascending (merge_ascending hold n) m) fun k => ?_
  rw [get?_merge hn, get?_merge hm, get?_merge hm, get?_merge hn]
  obtain hnone | hnone := h k
  · rw [hnone, Option.none_or, Option.none_or]
  · rw [hnone, Option.none_or, Option.none_or]

end Outreach.Keyed
