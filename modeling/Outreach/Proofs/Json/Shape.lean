import Outreach.Json.Reader
import Outreach.Proofs.Json.Numeral
import Outreach.Proofs.Keyed

/-! The shape of a value: how deep it nests, the order of its members, and the numbers in it. -/
namespace Outreach.Json

mutual

def depth : Json → Nat
  | .arr xs => itemsDepth xs + 1
  | .obj ms => membersDepth ms + 1
  | _ => 0

def itemsDepth : List Json → Nat
  | [] => 0
  | j :: r => max (depth j) (itemsDepth r)

def membersDepth : List (String × Json) → Nat
  | [] => 0
  | (_, j) :: r => max (depth j) (membersDepth r)

end

mutual

def numbers : Json → List Number
  | .num n => [n]
  | .arr xs => itemsNumbers xs
  | .obj ms => membersNumbers ms
  | _ => []

def itemsNumbers : List Json → List Number
  | [] => []
  | j :: r => numbers j ++ itemsNumbers r

def membersNumbers : List (String × Json) → List Number
  | [] => []
  | (_, j) :: r => numbers j ++ membersNumbers r

end

mutual

/-- Members stand in ascending order of the keys at every depth, as in every value that was read. -/
def Canonical : Json → Prop
  | .arr xs => ItemsCanonical xs
  | .obj ms => Keyed.Ascending ms ∧ MembersCanonical ms
  | _ => True

def ItemsCanonical : List Json → Prop
  | [] => True
  | j :: r => Canonical j ∧ ItemsCanonical r

def MembersCanonical : List (String × Json) → Prop
  | [] => True
  | (_, j) :: r => Canonical j ∧ MembersCanonical r

end

mutual

def reread? : Json → Option Json
  | .num n => n.reread?.map .num
  | .arr xs => (rereadItems? xs).map .arr
  | .obj ms => (rereadMembers? ms).map .obj
  | j => some j

def rereadItems? : List Json → Option (List Json)
  | [] => some []
  | j :: r => do
    let v ← reread? j
    let vs ← rereadItems? r
    return v :: vs

def rereadMembers? : List (String × Json) → Option (List (String × Json))
  | [] => some []
  | (k, j) :: r => do
    let v ← reread? j
    let vs ← rereadMembers? r
    return (k, v) :: vs

end

theorem itemsDepth_le_iff {xs : List Json} {n : Nat} : itemsDepth xs ≤ n ↔ ∀ j ∈ xs, j.depth ≤ n := by
  induction xs with
  | nil => simp [itemsDepth]
  | cons j xs ih => simp [itemsDepth, ih]

theorem membersDepth_le_iff {ms : List (String × Json)} {n : Nat} : membersDepth ms ≤ n ↔ ∀ m ∈ ms, m.2.depth ≤ n := by
  induction ms with
  | nil => simp [membersDepth]
  | cons m ms ih => simp [membersDepth, ih]

theorem depth_arr_map_le {α : Type} {f : α → Json} {as : List α} {n : Nat} (h : ∀ a ∈ as, (f a).depth ≤ n) :
    (arr (as.map f)).depth ≤ n + 1 :=
  Nat.succ_le_succ (itemsDepth_le_iff.mpr (List.forall_mem_map.mpr h))

theorem membersCanonical_iff {ms : List (String × Json)} : MembersCanonical ms ↔ ∀ m ∈ ms, Canonical m.2 := by
  induction ms with
  | nil => simp [MembersCanonical]
  | cons m ms ih => simp [MembersCanonical, ih]

mutual

theorem reread?_isSome (j : Json) : (reread? j).isSome = true ↔ ∀ n ∈ j.numbers, n.reread?.isSome = true := by
  match j with
  | .null | .bool _ | .str _ => simp [reread?, numbers]
  | .num n => simp [reread?, numbers]
  | .arr xs => simpa [reread?, numbers] using rereadItems?_isSome xs
  | .obj ms => simpa [reread?, numbers] using rereadMembers?_isSome ms

theorem rereadItems?_isSome (xs : List Json) :
    (rereadItems? xs).isSome = true ↔ ∀ n ∈ itemsNumbers xs, n.reread?.isSome = true := by
  match xs with
  | [] => simp [rereadItems?, itemsNumbers]
  | j :: r =>
    have hj := reread?_isSome j
    have hr := rereadItems?_isSome r
    simp only [itemsNumbers, List.forall_mem_append, ← hj, ← hr]
    cases h : reread? j <;> cases h' : rereadItems? r <;> simp [rereadItems?, h, h']

theorem rereadMembers?_isSome (ms : List (String × Json)) :
    (rereadMembers? ms).isSome = true ↔ ∀ n ∈ membersNumbers ms, n.reread?.isSome = true := by
  match ms with
  | [] => simp [rereadMembers?, membersNumbers]
  | (k, j) :: r =>
    have hj := reread?_isSome j
    have hr := rereadMembers?_isSome r
    simp only [membersNumbers, List.forall_mem_append, ← hj, ← hr]
    cases h : reread? j <;> cases h' : rereadMembers? r <;> simp [rereadMembers?, h, h']

end

mutual

/-- A value is read back as it was exactly when its numbers are. -/
theorem reread?_eq_self (j : Json) : reread? j = some j ↔ ∀ n ∈ j.numbers, n.reread? = some n := by
  match j with
  | .null | .bool _ | .str _ => simp [reread?, numbers]
  | .num n => simp [reread?, numbers]
  | .arr xs => simpa [reread?, numbers] using rereadItems?_eq_self xs
  | .obj ms => simpa [reread?, numbers] using rereadMembers?_eq_self ms

theorem rereadItems?_eq_self (xs : List Json) :
    rereadItems? xs = some xs ↔ ∀ n ∈ itemsNumbers xs, n.reread? = some n := by
  match xs with
  | [] => simp [rereadItems?, itemsNumbers]
  | j :: r =>
    have hj := reread?_eq_self j
    have hr := rereadItems?_eq_self r
    simp only [itemsNumbers, List.forall_mem_append, ← hj, ← hr]
    cases h : reread? j <;> cases h' : rereadItems? r <;> simp [rereadItems?, h, h']

theorem rereadMembers?_eq_self (ms : List (String × Json)) :
    rereadMembers? ms = some ms ↔ ∀ n ∈ membersNumbers ms, n.reread? = some n := by
  match ms with
  | [] => simp [rereadMembers?, membersNumbers]
  | (k, j) :: r =>
    have hj := reread?_eq_self j
    have hr := rereadMembers?_eq_self r
    simp only [membersNumbers, List.forall_mem_append, ← hj, ← hr]
    cases h : reread? j <;> cases h' : rereadMembers? r <;> simp [rereadMembers?, h, h']

end

theorem rereadMembers?_keys {ms vs : List (String × Json)} (h : rereadMembers? ms = some vs) :
    vs.map (·.1) = ms.map (·.1) := by
  induction ms generalizing vs with
  | nil =>
    simp only [rereadMembers?, Option.some.injEq] at h
    simp [← h]
  | cons m ms ih =>
    obtain ⟨k, j⟩ := m
    simp only [rereadMembers?, Option.bind_eq_bind, Option.bind_eq_some_iff, Option.pure_def, Option.some.injEq] at h
    obtain ⟨v, -, ws, hws, rfl⟩ := h
    simp [ih hws]

theorem get?_rereadMembers? {ms vs : List (String × Json)} (h : rereadMembers? ms = some vs) (key : String) :
    Keyed.get? vs key = (Keyed.get? ms key).bind reread? := by
  induction ms generalizing vs with
  | nil =>
    simp only [rereadMembers?, Option.some.injEq] at h
    rw [← h]
    rfl
  | cons m ms ih =>
    obtain ⟨k, j⟩ := m
    simp only [rereadMembers?, Option.bind_eq_bind, Option.bind_eq_some_iff, Option.pure_def, Option.some.injEq] at h
    obtain ⟨v, hv, ws, hws, rfl⟩ := h
    rw [Keyed.get?_cons, Keyed.get?_cons]
    split
    · exact hv.symm
    · exact ih hws

mutual

theorem sorted_canonical (j : Json) : j.sorted.Canonical := by
  match j with
  | .null | .bool _ | .num _ | .str _ => trivial
  | .arr xs => exact sortedItems_canonical xs
  | .obj ms =>
    refine ⟨Keyed.ofList_ascending _, membersCanonical_iff.mpr fun m hm => ?_⟩
    exact membersCanonical_iff.mp (sortedMembers_canonical ms) m (Keyed.mem_ofList hm)

theorem sortedItems_canonical (xs : List Json) : ItemsCanonical (sortedItems xs) := by
  match xs with
  | [] => trivial
  | j :: r => exact ⟨sorted_canonical j, sortedItems_canonical r⟩

theorem sortedMembers_canonical (ms : List (String × Json)) : MembersCanonical (sortedMembers ms) := by
  match ms with
  | [] => trivial
  | (k, j) :: r => exact ⟨sorted_canonical j, sortedMembers_canonical r⟩

end

mutual

theorem sorted_of_canonical (j : Json) (h : j.Canonical) : j.sorted = j := by
  match j with
  | .null | .bool _ | .num _ | .str _ => rfl
  | .arr xs => rw [sorted, sortedItems_of_canonical xs h]
  | .obj ms => rw [sorted, sortedMembers_of_canonical ms h.2, Keyed.ofList_of_ascending h.1]

theorem sortedItems_of_canonical (xs : List Json) (h : ItemsCanonical xs) : sortedItems xs = xs := by
  match xs with
  | [] => rfl
  | j :: r => rw [sortedItems, sorted_of_canonical j h.1, sortedItems_of_canonical r h.2]

theorem sortedMembers_of_canonical (ms : List (String × Json)) (h : MembersCanonical ms) : sortedMembers ms = ms := by
  match ms with
  | [] => rfl
  | (k, j) :: r => rw [sortedMembers, sorted_of_canonical j h.1, sortedMembers_of_canonical r h.2]

end

mutual

theorem depth_sorted_le (j : Json) : j.sorted.depth ≤ j.depth := by
  match j with
  | .null | .bool _ | .num _ | .str _ => exact le_rfl
  | .arr xs => exact Nat.succ_le_succ (itemsDepth_sorted_le xs)
  | .obj ms =>
    refine Nat.succ_le_succ (membersDepth_le_iff.mpr fun m hm => ?_)
    exact membersDepth_le_iff.mp (membersDepth_sorted_le ms) m (Keyed.mem_ofList hm)

theorem itemsDepth_sorted_le (xs : List Json) : itemsDepth (sortedItems xs) ≤ itemsDepth xs := by
  match xs with
  | [] => exact le_rfl
  | j :: r => exact max_le_max (depth_sorted_le j) (itemsDepth_sorted_le r)

theorem membersDepth_sorted_le (ms : List (String × Json)) : membersDepth (sortedMembers ms) ≤ membersDepth ms := by
  match ms with
  | [] => exact le_rfl
  | (k, j) :: r => exact max_le_max (depth_sorted_le j) (membersDepth_sorted_le r)

end

theorem mem_membersNumbers {ms : List (String × Json)} {n : Number} :
    n ∈ membersNumbers ms ↔ ∃ m ∈ ms, n ∈ m.2.numbers := by
  induction ms with
  | nil => simp [membersNumbers]
  | cons m ms ih => simp [membersNumbers, ih]

mutual

theorem numbers_sorted_subset (j : Json) : j.sorted.numbers ⊆ j.numbers := by
  match j with
  | .null | .bool _ | .num _ | .str _ => exact List.Subset.refl _
  | .arr xs => exact itemsNumbers_sorted_subset xs
  | .obj ms =>
    intro n hn
    obtain ⟨m, hm, hn⟩ := mem_membersNumbers.mp hn
    exact membersNumbers_sorted_subset ms (mem_membersNumbers.mpr ⟨m, Keyed.mem_ofList hm, hn⟩)

theorem itemsNumbers_sorted_subset (xs : List Json) : itemsNumbers (sortedItems xs) ⊆ itemsNumbers xs := by
  match xs with
  | [] => exact List.Subset.refl _
  | j :: r =>
    exact List.append_subset.mpr ⟨List.subset_append_of_subset_left _ (numbers_sorted_subset j),
      List.subset_append_of_subset_right _ (itemsNumbers_sorted_subset r)⟩

theorem membersNumbers_sorted_subset (ms : List (String × Json)) :
    membersNumbers (sortedMembers ms) ⊆ membersNumbers ms := by
  match ms with
  | [] => exact List.Subset.refl _
  | (k, j) :: r =>
    exact List.append_subset.mpr ⟨List.subset_append_of_subset_left _ (numbers_sorted_subset j),
      List.subset_append_of_subset_right _ (membersNumbers_sorted_subset r)⟩

end

theorem sortedItems_eq (xs : List Json) : sortedItems xs = xs.map sorted := by
  induction xs with
  | nil => rfl
  | cons j xs ih => rw [sortedItems, ih]; rfl

theorem keys_sortedMembers (ms : List (String × Json)) : (sortedMembers ms).map (·.1) = ms.map (·.1) := by
  induction ms with
  | nil => rfl
  | cons m ms ih => simp [sortedMembers, ih]

theorem get?_sortedMembers (ms : List (String × Json)) (key : String) :
    Keyed.get? (sortedMembers ms) key = (Keyed.get? ms key).map sorted := by
  induction ms with
  | nil => rfl
  | cons m ms ih =>
    obtain ⟨k, j⟩ := m
    rw [sortedMembers, Keyed.get?_cons, Keyed.get?_cons]
    split
    · rfl
    · exact ih

end Outreach.Json
