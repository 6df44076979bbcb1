import Outreach.Engine.Program

/-! What programs ask for and end with, given answers as they may come. The program asks and others answer,
so this carries over to every interleaving of programs. -/
namespace Outreach

structure Terms where
  asks : Request → Prop
  answers : (r : Request) → r.Reply → Prop

def Terms.and (c c' : Terms) : Terms := ⟨fun r => c.asks r ∧ c'.asks r, fun r x => c.answers r x ∧ c'.answers r x⟩

namespace Program
variable {α β : Type} {c : Terms} {P : α → Prop}

/-- The program keeps to the terms, and it ends with a result as described if it ends. -/
def Meets (c : Terms) (P : α → Prop) : Program α → Prop
  | .done a => P a
  | .ask r next => c.asks r ∧ ∀ x, c.answers r x → (next x).Meets c P
  | .endless => True

theorem meets_pure {a : α} (h : P a) : Meets c P (pure a) := h

theorem meets_bind {p : Program α} {f : α → Program β} {Q : β → Prop} (hp : p.Meets c P)
    (hf : ∀ a, P a → (f a).Meets c Q) : Meets c Q (p >>= f) := by
  induction p with
  | done a => exact hf a hp
  | ask r next ih => exact ⟨hp.1, fun x hx => ih x (hp.2 x hx)⟩
  | endless => exact trivial

theorem meets_request {r : Request} {P : r.Reply → Prop} (h : c.asks r) (hx : ∀ x, c.answers r x → P x) :
    Meets c P (request r) :=
  ⟨h, hx⟩

theorem meets_mono {p : Program α} {Q : α → Prop} (hp : p.Meets c P) (h : ∀ a, P a → Q a) :
    p.Meets c Q := by
  induction p with
  | done a => exact h a hp
  | ask r next ih => exact ⟨hp.1, fun x hx => ih x (hp.2 x hx)⟩
  | endless => exact trivial

/-- What keeps to two kinds of terms keeps to both together. -/
theorem Meets.and {c' : Terms} {p : Program α} (h : p.Meets c P) (h' : p.Meets c' fun _ => True) :
    p.Meets (c.and c') P := by
  induction p with
  | done a => exact h
  | ask r next ih => exact ⟨⟨h.1, h'.1⟩, fun x hx => ih x (h.2 x hx.1) (h'.2 x hx.2)⟩
  | endless => exact trivial

theorem bind_bind {γ : Type} (p : Program α) (f : α → Program β) (g : β → Program γ) :
    p >>= f >>= g = p >>= fun a => f a >>= g := by
  induction p with
  | done a => rfl
  | ask r next ih => exact congrArg (Program.ask r) (funext ih)
  | endless => rfl

theorem run_bind {σ : Type} (h : Handler σ) (p : Program α) (f : α → Program β) (s : σ) :
    (p >>= f).run h s = (p.run h s).bind fun x => (f x.1).run h x.2 := by
  induction p generalizing s with
  | done a => rfl
  | ask r next ih => exact ih _ _
  | endless => rfl

inductive Leads : Program α → List Request → Program α → Prop where
  | refl (p : Program α) : Leads p [] p
  | answered {p : Program α} {rs : List Request} {r : Request} {next : r.Reply → Program α}
    (h : Leads p rs (.ask r next)) (x : r.Reply) : Leads p (rs ++ [r]) (next x)

theorem meets_of_leads {p q : Program α} {rs : List Request} (hp : p.Meets c P) (hany : ∀ r x, c.answers r x)
    (h : p.Leads rs q) : q.Meets c P := by
  induction h with
  | refl => exact hp
  | answered h x ih => exact ih.2 x (hany _ x)

end Program

namespace Attempt
variable {ε ε' α β : Type} {c : Terms} {P : α → Prop}

def Meets (c : Terms) (P : α → Prop) (p : Attempt ε α) : Prop :=
  Program.Meets c (fun x => ∀ a, x = .ok a → P a) p.run

theorem meets_pure {a : α} (h : P a) : Meets c P (pure a : Attempt ε α) := by
  intro b hb
  cases hb
  exact h

theorem meets_throw {e : ε} : Meets c P (throw e : Attempt ε α) := by
  intro b hb
  cases hb

theorem meets_bind {p : Attempt ε α} {f : α → Attempt ε β} {Q : β → Prop} (hp : Meets c P p)
    (hf : ∀ a, P a → Meets c Q (f a)) : Meets c Q (p >>= f) := by
  refine Program.meets_bind hp fun x hx => ?_
  cases x with
  | ok a => exact hf a (hx a rfl)
  | error e => exact fun b hb => by cases hb

theorem meets_of {f : ε' → ε} {p : Program (Except ε' α)} (h : p.Meets c fun x => ∀ a, x = .ok a → P a) :
    Meets c P (Attempt.of f p) := by
  refine Program.meets_bind h fun x hx => ?_
  cases x with
  | ok a => exact fun b hb => by cases hb; exact hx a rfl
  | error e => exact fun b hb => by cases hb

theorem meets_always {p : Program α} (h : p.Meets c P) : Meets c P (Attempt.always p : Attempt ε α) :=
  Program.meets_bind h fun _ ha => meets_pure ha

theorem meets_of_trivial {f : ε' → ε} {p : Program (Except ε' α)} (h : p.Meets c fun _ => True) :
    Meets c (fun _ => True) (Attempt.of f p) :=
  meets_of (Program.meets_mono h fun _ _ _ _ => trivial)

section
variable {σ : Type} {h : Program.Handler σ} {s s' : σ}

theorem run_bind (p : Attempt ε α) (f : α → Attempt ε β) :
    (p >>= f).run.run h s = (p.run.run h s).bind fun x => (ExceptT.bindCont f x.1).run h x.2 :=
  Program.run_bind h p.run (ExceptT.bindCont f) s

/-- Either the first part came to an error, or the second went on from its result. -/
theorem run_bind_eq_some {p : Attempt ε α} {f : α → Attempt ε β} {y : Except ε β} :
    (p >>= f).run.run h s = some (y, s') ↔ (∃ e, p.run.run h s = some (.error e, s') ∧ y = .error e) ∨
      ∃ a s₁, p.run.run h s = some (.ok a, s₁) ∧ (f a).run.run h s₁ = some (y, s') := by
  rw [run_bind, Option.bind_eq_some_iff]
  constructor
  · intro hboth
    obtain ⟨⟨x, s₁⟩, hp, hf⟩ := hboth
    cases x with
    | ok a => exact .inr ⟨a, s₁, hp, hf⟩
    | error e =>
      cases hf
      exact .inl ⟨e, hp, rfl⟩
  · intro hcases
    cases hcases with
    | inl herror =>
      obtain ⟨e, hp, rfl⟩ := herror
      exact ⟨_, hp, rfl⟩
    | inr hok =>
      obtain ⟨a, s₁, hp, hf⟩ := hok
      exact ⟨_, hp, hf⟩

theorem run_bind_of_ok {p : Attempt ε α} {f : α → Attempt ε β} {a : α} {s₁ : σ} (hp : p.run.run h s = some (.ok a, s₁)) :
    (p >>= f).run.run h s = (f a).run.run h s₁ := by
  rw [run_bind, hp]
  rfl

theorem run_of (f : ε' → ε) (p : Program (Except ε' α)) :
    (Attempt.of f p).run.run h s = (p.run h s).map fun x => (x.1.mapError f, x.2) := by
  refine (Program.run_bind h p _ s).trans ?_
  cases p.run h s with
  | none => rfl
  | some x =>
    obtain ⟨x, s₁⟩ := x
    cases x <;> rfl

variable {f : ε' → ε} {p : Program (Except ε' α)}

theorem run_of_ok {a : α} (hp : p.run h s = some (.ok a, s')) : (Attempt.of f p).run.run h s = some (.ok a, s') := by
  rw [run_of, hp]
  rfl

theorem ok_of_run {a : α} (hp : (Attempt.of f p).run.run h s = some (.ok a, s')) : p.run h s = some (.ok a, s') := by
  rw [run_of, Option.map_eq_some_iff] at hp
  obtain ⟨⟨x, s₁⟩, hp, hx⟩ := hp
  cases x <;> cases hx
  exact hp

theorem error_of_run {e : ε} (hp : (Attempt.of f p).run.run h s = some (.error e, s')) : ∃ fault, e = f fault := by
  rw [run_of, Option.map_eq_some_iff] at hp
  obtain ⟨⟨x, s₁⟩, -, hx⟩ := hp
  cases x <;> cases hx
  exact ⟨_, rfl⟩

end
end Attempt
end Outreach
