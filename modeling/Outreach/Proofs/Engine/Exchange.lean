import Outreach.Proofs.Engine.Program

/-! What was asked and how it was answered while a program came to its end. -/
namespace Outreach

structure Exchange where
  request : Request
  reply : request.Reply

def Exchange.stored? : Exchange → Option (NewTask × Int)
  | ⟨.insertTask t, .ok id⟩ => some (t, id)
  | _ => none

theorem Exchange.stored?_eq_some {e : Exchange} {t : NewTask} {id : Int} (h : e.stored? = some (t, id)) :
    e = ⟨.insertTask t, .ok id⟩ := by
  unfold stored? at h
  split at h
  · cases h
    rfl
  · cases h

namespace Program
variable {α β : Type} {c : Terms} {P : α → Prop} {l : List Exchange}

/-- With these answers the program asks for just that, and ends with the result. -/
def Yields : Program α → List Exchange → α → Prop
  | .done a, l, b => l = [] ∧ b = a
  | .ask r next, l, b => ∃ x rest, l = ⟨r, x⟩ :: rest ∧ (next x).Yields rest b
  | .endless, _, _ => False

theorem yields_request {r : Request} {x : r.Reply} : (request r).Yields l x ↔ l = [⟨r, x⟩] := by
  constructor
  · rintro ⟨y, rest, rfl, rfl, rfl⟩
    rfl
  · rintro rfl
    exact ⟨x, [], rfl, rfl, rfl⟩

theorem yields_bind {p : Program α} {f : α → Program β} {b : β} :
    (p >>= f).Yields l b ↔ ∃ a l₁ l₂, l = l₁ ++ l₂ ∧ p.Yields l₁ a ∧ (f a).Yields l₂ b := by
  induction p generalizing l with
  | done a =>
    constructor
    · intro h
      exact ⟨a, [], l, rfl, ⟨rfl, rfl⟩, h⟩
    · rintro ⟨a', l₁, l₂, rfl, ⟨rfl, rfl⟩, h⟩
      exact h
  | ask r next ih =>
    constructor
    · rintro ⟨x, rest, rfl, h⟩
      obtain ⟨a, l₁, l₂, rfl, hp, hf⟩ := (ih x).mp h
      exact ⟨a, ⟨r, x⟩ :: l₁, l₂, rfl, ⟨x, l₁, rfl, hp⟩, hf⟩
    · rintro ⟨a, l₁, l₂, rfl, ⟨x, rest, rfl, hp⟩, hf⟩
      exact ⟨x, rest ++ l₂, rfl, (ih x).mpr ⟨a, rest, l₂, rfl, hp, hf⟩⟩
  | endless =>
    constructor
    · exact False.elim
    · rintro ⟨a, l₁, l₂, -, h, -⟩
      exact h

/-- A program that keeps to terms has asked for nothing else. -/
theorem Meets.of_yields {p : Program α} (hp : p.Meets c P) {a : α} (h : p.Yields l a)
    (hl : ∀ e ∈ l, c.answers e.request e.reply) : (∀ e ∈ l, c.asks e.request) ∧ P a := by
  induction p generalizing l with
  | done b =>
    obtain ⟨rfl, rfl⟩ := h
    exact ⟨List.forall_mem_nil _, hp⟩
  | ask r next ih =>
    obtain ⟨x, rest, rfl, h⟩ := h
    obtain ⟨hx, hrest⟩ := List.forall_mem_cons.mp hl
    obtain ⟨hasks, ha⟩ := ih x (hp.2 x hx) h hrest
    exact ⟨List.forall_mem_cons.mpr ⟨hp.1, hasks⟩, ha⟩
  | endless => exact h.elim

/-- What was asked and answered when a handler has run the program. -/
theorem exists_yields {σ : Type} {h : Handler σ} {p : Program α} {s s' : σ} {a : α}
    (hrun : p.run h s = some (a, s')) : ∃ l, p.Yields l a := by
  induction p generalizing s with
  | done b =>
    cases hrun
    exact ⟨[], rfl, rfl⟩
  | ask r next ih =>
    obtain ⟨l, hl⟩ := ih _ hrun
    exact ⟨_, _, _, rfl, hl⟩
  | endless => cases hrun

section
variable {σ : Type} {h : Handler σ} {s s' : σ}

inductive Answered (h : Handler σ) : σ → List Exchange → σ → Prop where
  | nil (s : σ) : Answered h s [] s
  | cons (r : Request) {s s' : σ} {l : List Exchange} (rest : Answered h (h r s).2 l s') :
    Answered h s (⟨r, (h r s).1⟩ :: l) s'

theorem answered_append {l₁ l₂ : List Exchange} :
    Answered h s (l₁ ++ l₂) s' ↔ ∃ s₁, Answered h s l₁ s₁ ∧ Answered h s₁ l₂ s' := by
  induction l₁ generalizing s with
  | nil =>
    constructor
    · intro hall
      exact ⟨_, .nil _, hall⟩
    · intro hboth
      obtain ⟨s₁, hnil, hall⟩ := hboth
      cases hnil
      exact hall
  | cons e l₁ ih =>
    constructor
    · intro hall
      cases hall with
      | cons r rest =>
        obtain ⟨s₁, hfirst, hlast⟩ := ih.mp rest
        exact ⟨s₁, .cons r hfirst, hlast⟩
    · intro hboth
      obtain ⟨s₁, hfirst, hlast⟩ := hboth
      cases hfirst with
      | cons r rest => exact .cons r (ih.mpr ⟨s₁, rest, hlast⟩)

theorem answered_cons {r : Request} {x : r.Reply} {l : List Exchange} :
    Answered h s (⟨r, x⟩ :: l) s' ↔ (h r s).1 = x ∧ Answered h (h r s).2 l s' := by
  constructor
  · intro hall
    cases hall with
    | cons r rest => exact ⟨rfl, rest⟩
  · intro hboth
    obtain ⟨rfl, rest⟩ := hboth
    exact .cons r rest

/-- Under the handler the program comes to its end with the result, and these are its exchanges. -/
structure Runs (h : Handler σ) (p : Program α) (s : σ) (l : List Exchange) (a : α) (s' : σ) : Prop where
  yields : p.Yields l a
  answered : Answered h s l s'

theorem run_eq_some_iff {p : Program α} {a : α} : p.run h s = some (a, s') ↔ ∃ l, Runs h p s l a s' := by
  induction p generalizing s with
  | done b =>
    constructor
    · intro hrun
      cases hrun
      exact ⟨[], ⟨rfl, rfl⟩, .nil _⟩
    · intro hlog
      obtain ⟨l, ⟨rfl, rfl⟩, hnil⟩ := hlog
      cases hnil
      rfl
  | ask r next ih =>
    rw [run, ih]
    constructor
    · intro hlog
      obtain ⟨l, hyields, hanswered⟩ := hlog
      exact ⟨_, ⟨_, l, rfl, hyields⟩, .cons r hanswered⟩
    · intro hlog
      obtain ⟨l, ⟨x, rest, rfl, hyields⟩, hanswered⟩ := hlog
      obtain ⟨rfl, hrest⟩ := answered_cons.mp hanswered
      exact ⟨rest, hyields, hrest⟩
  | endless =>
    constructor
    · intro hrun
      cases hrun
    · intro hlog
      obtain ⟨l, hyields, -⟩ := hlog
      exact hyields.elim

def trace (h : Handler σ) : Program α → σ → Option (List Exchange × α × σ)
  | .done a, s => some ([], a, s)
  | .ask r next, s => ((next (h r s).1).trace h (h r s).2).map fun x => (⟨r, (h r s).1⟩ :: x.1, x.2)
  | .endless, _ => none

theorem runs_of_trace {p : Program α} {a : α} (htrace : p.trace h s = some (l, a, s')) : Runs h p s l a s' := by
  induction p generalizing s l with
  | done b =>
    cases htrace
    exact ⟨⟨rfl, rfl⟩, .nil _⟩
  | ask r next ih =>
    obtain ⟨⟨rest, x⟩, hrest, hx⟩ := Option.map_eq_some_iff.mp htrace
    cases hx
    have hruns := ih _ hrest
    exact ⟨⟨_, _, rfl, hruns.yields⟩, .cons r hruns.answered⟩
  | endless => cases htrace

end
end Program

namespace Attempt
variable {ε ε' α β : Type} {c : Terms} {P : α → Prop} {l : List Exchange}

abbrev Yields (p : Attempt ε α) (l : List Exchange) (x : Except ε α) : Prop := Program.Yields p.run l x

theorem yields_pure {a : α} {x : Except ε α} : Yields (pure a) l x ↔ l = [] ∧ x = .ok a := Iff.rfl

theorem yields_bind {p : Attempt ε α} {f : α → Attempt ε β} {y : Except ε β} :
    Yields (p >>= f) l y ↔ (∃ e, p.Yields l (.error e) ∧ y = .error e) ∨
      ∃ a l₁ l₂, l = l₁ ++ l₂ ∧ p.Yields l₁ (.ok a) ∧ (f a).Yields l₂ y := by
  refine Program.yields_bind.trans ?_
  constructor
  · rintro ⟨x, l₁, l₂, rfl, hp, hf⟩
    cases x with
    | ok a => exact .inr ⟨a, l₁, l₂, rfl, hp, hf⟩
    | error e =>
      obtain ⟨rfl, rfl⟩ := hf
      exact .inl ⟨e, (List.append_nil l₁).symm ▸ hp, rfl⟩
  · rintro (⟨e, hp, rfl⟩ | ⟨a, l₁, l₂, rfl, hp, hf⟩)
    · exact ⟨.error e, l, [], (List.append_nil l).symm, hp, rfl, rfl⟩
    · exact ⟨.ok a, l₁, l₂, rfl, hp, hf⟩

theorem yields_always {p : Program α} {x : Except ε α} :
    (Attempt.always p : Attempt ε α).Yields l x ↔ ∃ a, p.Yields l a ∧ x = .ok a := by
  refine Program.yields_bind.trans ?_
  constructor
  · rintro ⟨a, l₁, l₂, rfl, hp, rfl, rfl⟩
    exact ⟨a, (List.append_nil l₁).symm ▸ hp, rfl⟩
  · rintro ⟨a, hp, rfl⟩
    exact ⟨a, l, [], (List.append_nil l).symm, hp, rfl, rfl⟩

theorem yields_of {f : ε' → ε} {p : Program (Except ε' α)} {x : Except ε α} :
    (Attempt.of f p).Yields l x ↔ ∃ y, p.Yields l y ∧ x = y.mapError f := by
  refine Program.yields_bind.trans ?_
  constructor
  · rintro ⟨y, l₁, l₂, rfl, hp, hlast⟩
    cases y <;> obtain ⟨rfl, rfl⟩ := hlast <;> exact ⟨_, (List.append_nil l₁).symm ▸ hp, rfl⟩
  · rintro ⟨y, hp, rfl⟩
    refine ⟨y, l, [], (List.append_nil l).symm, hp, ?_⟩
    cases y <;> exact ⟨rfl, rfl⟩

/-- What asks for one thing first fails with it, or goes on from the answer. -/
theorem yields_bind_asked {p : Program (Except ε' α)} {e : Except ε' α → Exchange} (hp : ∀ l y, p.Yields l y ↔ l = [e y])
    {f : ε' → ε} {k : α → Attempt ε β} {z : Except ε β} : Yields (Attempt.of f p >>= k) l z ↔
      (∃ fault, l = [e (.error fault)] ∧ z = .error (f fault)) ∨ ∃ a rest, l = e (.ok a) :: rest ∧ (k a).Yields rest z := by
  simp only [yields_bind, yields_of, hp]
  constructor
  · rintro (⟨e', ⟨y, rfl, hy⟩, rfl⟩ | ⟨a, l₁, rest, rfl, ⟨y, rfl, hy⟩, hrest⟩)
    · cases y <;> cases hy
      exact .inl ⟨_, rfl, rfl⟩
    · cases y <;> cases hy
      exact .inr ⟨a, rest, rfl, hrest⟩
  · rintro (⟨fault, rfl, rfl⟩ | ⟨a, rest, rfl, hrest⟩)
    · exact .inl ⟨_, ⟨_, rfl, rfl⟩, rfl⟩
    · exact .inr ⟨a, _, rest, rfl, ⟨_, rfl, rfl⟩, hrest⟩

/-- An attempt that keeps to terms has asked for nothing else. -/
theorem Meets.of_yields {p : Attempt ε α} (hp : Meets c P p) {x : Except ε α} (h : p.Yields l x)
    (hl : ∀ e ∈ l, c.answers e.request e.reply) :
    (∀ e ∈ l, c.asks e.request) ∧ ∀ a, x = .ok a → P a :=
  Program.Meets.of_yields hp h hl

end Attempt
end Outreach
