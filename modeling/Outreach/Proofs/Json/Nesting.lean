import Outreach.Proofs.Json.Reading

/-! How deep a text nests once it is read. Containers past the limit have no value, and where a text stops being JSON
nothing around that place has one, so that a value nests no deeper than its place allows. -/
namespace Outreach

namespace Doc

mutual

/-- Nests at most `n` containers, unless it stops being JSON. -/
def Fits (n : Nat) : Doc → Prop
  | .arr xs => (0 < n ∨ itemsWhole xs = false) ∧ ItemsFit (n - 1) xs
  | .obj ms => (0 < n ∨ membersWhole ms = false) ∧ MembersFit (n - 1) ms
  | _ => True

def ItemsFit (n : Nat) : List Doc → Prop
  | [] => True
  | d :: r => Fits n d ∧ ItemsFit n r

def MembersFit (n : Nat) : List (Option String × Doc) → Prop
  | [] => True
  | (_, d) :: r => Fits n d ∧ MembersFit n r

end

variable {n : Nat}

theorem itemsFit_iff {xs : List Doc} : ItemsFit n xs ↔ ∀ d ∈ xs, d.Fits n := by
  induction xs with
  | nil => simp [ItemsFit]
  | cons d xs ih => simp [ItemsFit, ih]

theorem membersFit_iff {ms : List (Option String × Doc)} : MembersFit n ms ↔ ∀ m ∈ ms, m.2.Fits n := by
  induction ms with
  | nil => simp [MembersFit]
  | cons m ms ih => simp [MembersFit, ih]

theorem itemsWhole_append (xs ys : List Doc) : itemsWhole (xs ++ ys) = (itemsWhole xs && itemsWhole ys) := by
  induction xs with
  | nil => simp [itemsWhole]
  | cons d xs ih => simp [itemsWhole, ih, Bool.and_assoc]

theorem membersWhole_append (ms ns : List (Option String × Doc)) :
    membersWhole (ms ++ ns) = (membersWhole ms && membersWhole ns) := by
  induction ms with
  | nil => simp [membersWhole]
  | cons m ms ih => simp [membersWhole, ih, Bool.and_assoc]

mutual

theorem isWhole_of_value? (d : Doc) {j : Json} (h : d.value? = some j) : d.isWhole = true := by
  match d with
  | .null | .bool _ | .num _ | .str _ => rfl
  | .arr xs =>
    obtain ⟨vs, hvs, -⟩ := Option.map_eq_some_iff.mp h
    exact itemsWhole_of_values? xs hvs
  | .obj ms =>
    obtain ⟨vs, hvs, -⟩ := Option.map_eq_some_iff.mp h
    exact membersWhole_of_values? ms hvs
  | .unreadable | .broken => cases h

theorem itemsWhole_of_values? (xs : List Doc) {vs : List Json} (h : itemValues? xs = some vs) :
    itemsWhole xs = true := by
  match xs with
  | [] => rfl
  | d :: r =>
    simp only [itemValues?, Option.bind_eq_bind, Option.bind_eq_some_iff] at h
    obtain ⟨v, hv, ws, hws, -⟩ := h
    rw [itemsWhole, isWhole_of_value? d hv, itemsWhole_of_values? r hws, Bool.and_self]

theorem membersWhole_of_values? (ms : List (Option String × Doc)) {vs : List (String × Json)}
    (h : memberValues? ms = some vs) : membersWhole ms = true := by
  match ms with
  | [] => rfl
  | (k, d) :: r =>
    simp only [memberValues?, Option.bind_eq_bind, Option.bind_eq_some_iff] at h
    obtain ⟨k, -, v, hv, ws, hws, -⟩ := h
    rw [membersWhole, isWhole_of_value? d hv, membersWhole_of_values? r hws, Bool.and_self]

end

mutual

theorem depth_le_of_fits (d : Doc) {n : Nat} (hd : d.Fits n) {j : Json} (h : d.value? = some j) : j.depth ≤ n := by
  match d with
  | .null | .bool _ | .num _ | .str _ =>
    cases h
    exact Nat.zero_le n
  | .arr xs =>
    obtain ⟨vs, hvs, rfl⟩ := Option.map_eq_some_iff.mp h
    have hn : 0 < n := hd.1.resolve_right (by simp [itemsWhole_of_values? xs hvs])
    have hvs := itemsDepth_le_of_fit xs hd.2 hvs
    rw [Json.depth]
    omega
  | .obj ms =>
    obtain ⟨vs, hvs, rfl⟩ := Option.map_eq_some_iff.mp h
    have hn : 0 < n := hd.1.resolve_right (by simp [membersWhole_of_values? ms hvs])
    have hvs := Json.membersDepth_le_iff.mp (membersDepth_le_of_fit ms hd.2 hvs)
    have hkept : Json.membersDepth (Keyed.ofList vs) ≤ n - 1 :=
      Json.membersDepth_le_iff.mpr fun m hm => hvs m (Keyed.mem_ofList hm)
    rw [Json.depth]
    omega
  | .unreadable | .broken => cases h

theorem itemsDepth_le_of_fit (xs : List Doc) {n : Nat} (hxs : ItemsFit n xs) {vs : List Json}
    (h : itemValues? xs = some vs) : Json.itemsDepth vs ≤ n := by
  match xs with
  | [] =>
    cases h
    exact Nat.zero_le n
  | d :: r =>
    simp only [itemValues?, Option.bind_eq_bind, Option.bind_eq_some_iff, Option.pure_def, Option.some.injEq] at h
    obtain ⟨v, hv, ws, hws, rfl⟩ := h
    exact Nat.max_le.mpr ⟨depth_le_of_fits d hxs.1 hv, itemsDepth_le_of_fit r hxs.2 hws⟩

theorem membersDepth_le_of_fit (ms : List (Option String × Doc)) {n : Nat} (hms : MembersFit n ms)
    {vs : List (String × Json)} (h : memberValues? ms = some vs) : Json.membersDepth vs ≤ n := by
  match ms with
  | [] =>
    cases h
    exact Nat.zero_le n
  | (k, d) :: r =>
    simp only [memberValues?, Option.bind_eq_bind, Option.bind_eq_some_iff, Option.pure_def, Option.some.injEq] at h
    obtain ⟨k, -, v, hv, ws, hws, rfl⟩ := h
    exact Nat.max_le.mpr ⟨depth_le_of_fits d hms.1 hv, membersDepth_le_of_fit r hms.2 hws⟩

end

end Doc

namespace Json
namespace Reading
open Doc

variable {limit : Nat} {r r' : Reading}

def FrameFits (n : Nat) : Frame → Prop
  | .items done => ∀ d ∈ done, d.Fits n
  | .members done _ => ∀ m ∈ done, m.2.Fits n

def StackFits (limit : Nat) : List Frame → Prop
  | [] => True
  | f :: st => FrameFits (limit - (st.length + 1)) f ∧ StackFits limit st

structure Fits (limit : Nat) (r : Reading) : Prop where
  stack : StackFits limit r.stack
  result : r.result.Fits limit

inductive Moves (limit : Nat) (r : Reading) : Reading → Prop where
  | scalar {t : Token} {d : Doc} (h : scalar? t = some d) : Moves limit r (r.push d)
  | opened {f : Frame} (e : Expected) (h : f = .items [] ∨ f = .members [] none) :
    Moves limit r { r with stack := f :: r.stack, expected := e }
  | closedList {done : List Doc} {st : List Frame} (h : r.stack = .items done :: st) :
    Moves limit r (r.close limit st (.arr done.reverse))
  | closedObject {done : List (Option String × Doc)} {key : Option (Option String)} {st : List Frame}
    (h : r.stack = .members done key :: st) : Moves limit r (r.close limit st (.obj done.reverse))
  | named {done : List (Option String × Doc)} {key : Option (Option String)} {st : List Frame} (s : Option String)
    (h : r.stack = .members done key :: st) :
    Moves limit r { r with stack := .members done (some s) :: st, expected := .colon }
  | passed (e : Expected) : Moves limit r { r with expected := e }

/-- A token where a value may begin opens a container or is a value by itself. -/
theorem moves_of_opensValue {t : Token} (he : OpensValue r.expected) (ht : t ≠ .closeList)
    (h : r.step? limit t = some r') : r.Moves limit r' := by
  obtain ⟨st, e, res⟩ := r
  obtain rfl | rfl : e = .value ∨ e = .valueOrClose := he
  all_goals
    cases t with
    | openList =>
      cases h
      exact .opened _ (.inl rfl)
    | openObject =>
      cases h
      exact .opened _ (.inr rfl)
    | closeList => exact absurd rfl ht
    | _ =>
      simp only [step?, Option.map_eq_some_iff] at h
      obtain ⟨d, hd, rfl⟩ := h
      exact .scalar hd

theorem moves_of_step? {t : Token} (h : r.step? limit t = some r') : r.Moves limit r' := by
  obtain ⟨st, e, res⟩ := r
  -- By what may come next, and then by the token. Most tokens cannot stand there, and are no step.
  cases e with
  | value =>
    refine moves_of_opensValue (.inl rfl) (fun ht => ?_) h
    rw [ht] at h
    cases h
  | valueOrClose =>
    by_cases ht : t = .closeList
    · rw [ht] at h
      simp only [step?] at h
      split at h
      · cases h
        exact .closedList rfl
      · cases h
    · exact moves_of_opensValue (.inr rfl) ht h
  | keyOrClose =>
    cases t with
    | closeObject =>
      simp only [step?] at h
      split at h
      · cases h
        exact .closedObject rfl
      · cases h
    | str s =>
      simp only [step?] at h
      split at h
      · cases h
        exact .named s rfl
      · cases h
    | _ => cases h
  | key =>
    cases t with
    | str s =>
      simp only [step?] at h
      split at h
      · cases h
        exact .named s rfl
      · cases h
    | _ => cases h
  | colon =>
    cases t with
    | colon =>
      cases h
      exact .passed .value
    | _ => cases h
  | commaOrClose =>
    cases t with
    | comma =>
      simp only [step?] at h
      split at h
      · cases h
        exact .passed .value
      · cases h
        exact .passed .key
      · cases h
    | closeList =>
      simp only [step?] at h
      split at h
      · cases h
        exact .closedList rfl
      · cases h
    | closeObject =>
      simp only [step?] at h
      split at h
      · cases h
        exact .closedObject rfl
      · cases h
    | _ => cases h
  | nothing => cases t <;> cases h

theorem fits_of_scalar? {t : Token} {d : Doc} (h : scalar? t = some d) (n : Nat) : d.Fits n := by
  cases t with
  | null | bool _ =>
    cases h
    exact trivial
  | num x => cases x <;> cases h <;> exact trivial
  | str s => cases s <;> cases h <;> exact trivial
  | _ => cases h

theorem push_fits (h : r.Fits limit) {d : Doc} (hd : d.Fits (limit - r.stack.length)) : (r.push d).Fits limit := by
  obtain ⟨st, e, res⟩ := r
  obtain ⟨hst, hres⟩ := h
  cases st with
  | nil => exact ⟨trivial, hd⟩
  | cons f st =>
    obtain ⟨hf, hst⟩ := hst
    cases f with
    | items done => exact ⟨⟨List.forall_mem_cons.mpr ⟨hd, hf⟩, hst⟩, trivial⟩
    | members done key => exact ⟨⟨List.forall_mem_cons.mpr ⟨hd, hf⟩, hst⟩, trivial⟩

/-- A container that closes fits into the one around it. -/
theorem close_fits {f : Frame} {st : List Frame} (h : r.Fits limit) (hst : r.stack = f :: st) {d : Doc}
    (hd : st.length + 1 ≤ limit → d.Fits (limit - st.length)) : (r.close limit st d).Fits limit := by
  have hrest : StackFits limit st := by
    have hstack := h.stack
    rw [hst] at hstack
    exact hstack.2
  refine push_fits (r := { r with stack := st }) ⟨hrest, h.result⟩ ?_
  rw [hst, List.length_cons]
  split
  · exact trivial
  · exact hd (by omega)

theorem Moves.fits (hmove : r.Moves limit r') (h : r.Fits limit) : r'.Fits limit := by
  cases hmove with
  | scalar hd => exact push_fits h (fits_of_scalar? hd _)
  | opened e hf =>
    refine ⟨⟨?_, h.stack⟩, h.result⟩
    obtain rfl | rfl := hf
    · exact List.forall_mem_nil _
    · exact List.forall_mem_nil _
  | @closedList done st hst =>
    have hdone : FrameFits (limit - (st.length + 1)) (.items done) := by
      have hstack := h.stack
      rw [hst] at hstack
      exact hstack.1
    refine close_fits h hst fun hlimit => ⟨.inl (by omega), itemsFit_iff.mpr fun d hd => ?_⟩
    exact hdone d (List.mem_reverse.mp hd)
  | @closedObject done key st hst =>
    have hdone : FrameFits (limit - (st.length + 1)) (.members done key) := by
      have hstack := h.stack
      rw [hst] at hstack
      exact hstack.1
    refine close_fits h hst fun hlimit => ⟨.inl (by omega), membersFit_iff.mpr fun m hm => ?_⟩
    exact hdone m (List.mem_reverse.mp hm)
  | named s hst =>
    have hstack := h.stack
    rw [hst] at hstack
    exact ⟨hstack, h.result⟩
  | passed e => exact ⟨h.stack, h.result⟩

/-- Where a text stops being JSON, all containers around that place are broken off. -/
theorem abandon_fits {st : List Frame} (hst : StackFits limit st) {d : Doc} (hd : d.Fits (limit - st.length))
    (hbroken : d.isWhole = false) : (abandon st d).Fits limit := by
  -- From the innermost container outwards: what is broken makes whatever it stands in broken as well, and only whole
  -- documents have a depth to keep.
  induction st generalizing d with
  | nil => exact hd
  | cons f st ih =>
    obtain ⟨hf, hst⟩ := hst
    cases f with
    | items done =>
      have hwhole : itemsWhole (done.reverse ++ [d]) = false := by simp [itemsWhole_append, itemsWhole, hbroken]
      refine ih hst ⟨.inr hwhole, itemsFit_iff.mpr fun x hx => ?_⟩ hwhole
      obtain hx | hx := List.mem_append.mp hx
      · exact hf x (List.mem_reverse.mp hx)
      · rw [List.mem_singleton.mp hx]
        exact hd
    | members done key =>
      have hwhole : membersWhole (done.reverse ++ [(key.join, d)]) = false := by
        simp [membersWhole_append, membersWhole, hbroken]
      refine ih hst ⟨.inr hwhole, membersFit_iff.mpr fun m hm => ?_⟩ hwhole
      obtain hm | hm := List.mem_append.mp hm
      · exact hf m (List.mem_reverse.mp hm)
      · rw [List.mem_singleton.mp hm]
        exact hd

theorem run_fits (h : r.Fits limit) (ts : List Token) : (r.run limit ts).1.Fits limit := by
  induction ts generalizing r with
  | nil =>
    rw [run]
    split
    · exact h.result
    · exact abandon_fits h.stack trivial rfl
  | cons t ts ih =>
    rw [run]
    split
    · exact h.result
    · split
      · rename_i r' hstep
        exact ih ((moves_of_step? hstep).fits h)
      · exact abandon_fits h.stack trivial rfl

end Reading

/-- Whatever the text, its document nests within the limit. -/
theorem readWithin_fits (limit : Nat) (s : String) : (readWithin limit s).1.Fits limit :=
  Reading.run_fits (r := .start) ⟨trivial, trivial⟩ _

end Json
end Outreach
