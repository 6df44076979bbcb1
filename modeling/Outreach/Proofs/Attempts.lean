import Mathlib.Data.List.Forall2

/-! Attempts one after another and over lists. All of them go well, or the first failure is the failure of them all. -/
namespace Outreach
variable {ε α β γ : Type}

theorem bind_eq_ok {x : Except ε α} {f : α → Except ε β} {b : β} : x >>= f = .ok b ↔ ∃ a, x = .ok a ∧ f a = .ok b := by
  cases x <;> simp [bind, Except.bind]

theorem map_eq_ok {x : Except ε α} {f : α → β} {b : β} : x.map f = .ok b ↔ ∃ a, x = .ok a ∧ f a = b := by
  cases x <;> simp [Except.map]

theorem eq_ok_of_toOption {ε α : Type} {x : Except ε α} {a : α} (h : x.toOption = some a) : x = .ok a := by
  cases x with
  | ok b => exact congrArg Except.ok (Option.some.inj h)
  | error e => cases h

/-- After one step that led nowhere no further one leads anywhere. -/
theorem foldl_bind_none {f : β → α → Option α} (bs : List β) :
    bs.foldl (fun found b => found.bind (f b)) none = none := by
  induction bs with
  | nil => rfl
  | cons b bs ih => exact ih

variable {f : α → Except ε β} {as : List α} {bs : List β}

theorem mapM_eq_ok : as.mapM f = .ok bs ↔ List.Forall₂ (fun a b => f a = .ok b) as bs := by
  induction as generalizing bs with
  | nil => simp [pure, Except.pure, eq_comm]
  | cons a as ih =>
    rw [List.mapM_cons]
    constructor
    · intro h
      obtain ⟨b, hb, h⟩ := bind_eq_ok.mp h
      obtain ⟨rest, hrest, h⟩ := bind_eq_ok.mp h
      cases h
      exact .cons hb (ih.mp hrest)
    · intro h
      cases h with
      | cons hb hrest =>
        rw [hb, ih.mpr hrest]
        rfl

/-- Where two lists are related in order, each of the second list is related to one of the first. -/
theorem exists_of_forall₂ {R : α → β → Prop} (h : List.Forall₂ R as bs) : ∀ b ∈ bs, ∃ a ∈ as, R a b := by
  induction h with
  | nil => exact List.forall_mem_nil _
  | cons hab hrest ih =>
    refine List.forall_mem_cons.mpr ⟨⟨_, List.mem_cons_self, hab⟩, fun b' hb' => ?_⟩
    obtain ⟨a', ha', hab'⟩ := ih b' hb'
    exact ⟨a', List.mem_cons_of_mem _ ha', hab'⟩

theorem mem_of_mapM (h : as.mapM f = .ok bs) : ∀ b ∈ bs, ∃ a ∈ as, f a = .ok b := exists_of_forall₂ (mapM_eq_ok.mp h)

theorem exists_of_mapM (h : as.mapM f = .ok bs) : ∀ a ∈ as, ∃ b ∈ bs, f a = .ok b :=
  exists_of_forall₂ (List.Forall₂.flip (mapM_eq_ok.mp h))

/-- What can be told of each result from what it comes from. -/
theorem map_of_mapM {g : β → γ} {k : α → γ} (h : as.mapM f = .ok bs) (hk : ∀ a ∈ as, ∀ b, f a = .ok b → g b = k a) :
    bs.map g = as.map k := by
  have hpairs := (List.forall₂_and_left as bs).mpr ⟨hk, mapM_eq_ok.mp h⟩
  rw [← List.forall₂_eq_eq_eq, List.forall₂_map_left_iff, List.forall₂_map_right_iff]
  exact (hpairs.imp fun a b hab => hab.1 b hab.2).flip

theorem mapM_map_eq_ok {g : α → α} {k : β → β} (h : as.mapM f = .ok bs)
    (hg : ∀ a ∈ as, ∀ b, f a = .ok b → f (g a) = .ok (k b)) : (as.map g).mapM f = .ok (bs.map k) := by
  have hpairs := (List.forall₂_and_left as bs).mpr ⟨hg, mapM_eq_ok.mp h⟩
  rw [mapM_eq_ok, List.forall₂_map_left_iff, List.forall₂_map_right_iff]
  exact hpairs.imp fun a b hab => hab.1 b hab.2

theorem mapM_isOk : (∃ bs, as.mapM f = .ok bs) ↔ ∀ a ∈ as, ∃ b, f a = .ok b := by
  constructor
  · rintro ⟨bs, h⟩ a ha
    obtain ⟨b, -, hb⟩ := exists_of_mapM h a ha
    exact ⟨b, hb⟩
  · intro h
    induction as with
    | nil => exact ⟨[], rfl⟩
    | cons a as ih =>
      obtain ⟨⟨b, hb⟩, has⟩ := List.forall_mem_cons.mp h
      obtain ⟨bs, hbs⟩ := ih has
      exact ⟨b :: bs, mapM_eq_ok.mpr (.cons hb (mapM_eq_ok.mp hbs))⟩

theorem mapM_filter {p : α → Bool} {q : β → Bool} (h : as.mapM f = .ok bs)
    (hq : ∀ a ∈ as, ∀ b, f a = .ok b → q b = p a) : (as.filter p).mapM f = .ok (bs.filter q) := by
  have hpairs := (List.forall₂_and_left as bs).mpr ⟨hq, mapM_eq_ok.mp h⟩
  rw [mapM_eq_ok]
  clear h hq
  induction hpairs with
  | nil => exact .nil
  | cons hab hrest ih =>
    rename_i a b as bs
    have hsame : q b = p a := hab.1 b hab.2
    cases hp : p a with
    | true =>
      rw [List.filter_cons_of_pos hp, List.filter_cons_of_pos (hsame.trans hp)]
      exact .cons hab.2 ih
    | false =>
      rw [List.filter_cons_of_neg (by simp [hp]), List.filter_cons_of_neg (by simp [hsame, hp])]
      exact ih

theorem mapM_eq_error {e : ε} (hall : ∀ a ∈ as, f a = .error e ∨ ∃ b, f a = .ok b) (hsome : ∃ a ∈ as, f a = .error e) :
    as.mapM f = .error e := by
  induction as with
  | nil =>
    obtain ⟨a, ha, -⟩ := hsome
    cases ha
  | cons a as ih =>
    obtain ⟨ha, has⟩ := List.forall_mem_cons.mp hall
    rw [List.mapM_cons]
    obtain ha | ⟨b, hb⟩ := ha
    · rw [ha]
      rfl
    · obtain ⟨a', ha', herror⟩ := hsome
      have hrest : as.mapM f = .error e := by
        obtain rfl | ha' := List.mem_cons.mp ha'
        · cases hb.symm.trans herror
        · exact ih has ⟨a', ha', herror⟩
      rw [hb, hrest]
      rfl

end Outreach
