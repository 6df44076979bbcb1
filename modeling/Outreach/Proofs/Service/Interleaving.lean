import Outreach.Proofs.Engine.Exchange
import Outreach.Proofs.Service.Answers

/-! Several programs over one service, their requests in any order among one another. Each request is answered at once
and as a whole; of each program that takes part the whole run is told. -/
namespace Outreach
open Program

/-- A request and its answer, with the program that it belongs to, or none for whoever else there is. -/
structure Deed where
  owner : Option Nat
  exchange : Exchange

namespace Deed
variable {i : Nat} {t t' : List Deed} {d : Deed} {e : Exchange}

def own (i : Nat) (t : List Deed) : List Exchange := (t.filter fun d => d.owner = some i).map (·.exchange)

theorem mem_own : e ∈ own i t ↔ (⟨some i, e⟩ : Deed) ∈ t := by
  simp only [own, List.mem_map, List.mem_filter, decide_eq_true_eq]
  constructor
  · intro h
    obtain ⟨d, ⟨hd, howner⟩, rfl⟩ := h
    exact howner ▸ hd
  · intro h
    exact ⟨_, ⟨h, rfl⟩, rfl⟩

theorem own_append (i : Nat) (t t' : List Deed) : own i (t ++ t') = own i t ++ own i t' := by
  simp [own]

theorem own_prefix (i : Nat) (h : t <+: t') : own i t <+: own i t' := by
  obtain ⟨rest, rfl⟩ := h
  rw [own_append]
  exact List.prefix_append _ _

/-- A program asks for nothing before its first request. -/
theorem first_before {pre : List Deed} {first : Exchange} {rest : List Exchange} (hpre : pre ++ [⟨some i, e⟩] <+: t)
    (hown : own i t = first :: rest) : e = first ∨ ⟨some i, first⟩ ∈ pre := by
  have hprefix := own_prefix i hpre
  have hlast : own i [⟨some i, e⟩] = [e] := by simp [own]
  rw [own_append, hlast, hown] at hprefix
  cases hbefore : own i pre with
  | nil =>
    rw [hbefore, List.nil_append] at hprefix
    exact .inl (List.cons_prefix_cons.mp hprefix).1
  | cons first' rest' =>
    rw [hbefore, List.cons_append] at hprefix
    obtain rfl := (List.cons_prefix_cons.mp hprefix).1
    exact .inr (mem_own.mp (hbefore ▸ List.mem_cons_self))

theorem own_all (i : Nat) (l : List Exchange) : own i (l.map (Deed.mk (some i))) = l := by
  simp [own, List.filter_map, Function.comp_def]

theorem own_other {owner : Option Nat} (h : owner ≠ some i) (l : List Exchange) : own i (l.map (Deed.mk owner)) = [] := by
  simp [own, h]

def amid (before inner after : List Exchange) : List Deed :=
  before.map (Deed.mk (some 1)) ++ inner.map (Deed.mk (some 0)) ++ after.map (Deed.mk (some 1))

variable {before inner after : List Exchange}

theorem own_inner : own 0 (amid before inner after) = inner := by
  simp [amid, own_append, own_all, own_other]

theorem own_outer : own 1 (amid before inner after) = before ++ after := by
  simp [amid, own_append, own_all, own_other]

theorem forall_mem_amid {P : Exchange → Prop} : (∀ d ∈ amid before inner after, P d.exchange) ↔
    (∀ e ∈ before, P e) ∧ (∀ e ∈ inner, P e) ∧ ∀ e ∈ after, P e := by
  simp only [amid, List.forall_mem_append, List.forall_mem_map, and_assoc]

end Deed

namespace Service
variable {around : Surroundings} {s s₁ s' : Service} {t t' : List Deed}

inductive History (around : Surroundings) (s : Service) : List Deed → Service → Prop where
  | nil : History around s [] s
  | snoc {t : List Deed} {s₁ s₂ : Service} {d : Deed} (before : History around s t s₁)
    (answers : Answers around d.exchange.request s₁ d.exchange.reply s₂) : History around s (t ++ [d]) s₂

theorem History.append (h : History around s t s₁) (h' : History around s₁ t' s') : History around s (t ++ t') s' := by
  induction h' with
  | nil => rwa [List.append_nil]
  | snoc before answers ih =>
    rw [← List.append_assoc]
    exact .snoc ih answers

theorem History.of_answered (owner : Option Nat) {l : List Exchange} (h : Answered (answer around) s l s') :
    History around s (l.map (Deed.mk owner)) s' := by
  induction h with
  | nil s => exact .nil
  | @cons r s s' l rest ih =>
    have hfirst : History around s ([] ++ [⟨owner, ⟨r, (answer around r s).1⟩⟩]) (answer around r s).2 :=
      .snoc .nil (answers_answer around r s)
    exact hfirst.append ih

/-- What each answer keeps on the way holds in the end. -/
theorem History.keeps {I : List Deed → Service → Prop} {whole : List Deed} (h : History around s t s')
    (ht : t <+: whole) (hnil : I [] s)
    (hstep : ∀ pre d s₁ s₂, pre ++ [d] <+: whole → I pre s₁ →
      Answers around d.exchange.request s₁ d.exchange.reply s₂ → I (pre ++ [d]) s₂) : I t s' := by
  induction h with
  | nil => exact hnil
  | snoc before answers ih =>
    have hbefore := ih ((List.prefix_append _ _).trans ht)
    exact hstep _ _ _ _ ht hbefore answers

/-- An order of the requests of several programs, of which any number take part and each of them comes to its end. -/
structure Interleaves {α : Type} (around : Surroundings) (others : Request → Prop) (programs : Nat → Program α)
    (s : Service) (t : List Deed) (s' : Service) : Prop where
  history : History around s t s'
  whole : ∀ i, Deed.own i t ≠ [] → ∃ x, (programs i).Yields (Deed.own i t) x
  elsewhere : ∀ d ∈ t, d.owner = none → others d.exchange.request

theorem Interleaves.amid {α : Type} {others : Request → Prop} {programs : Nat → Program α} {s₂ : Service}
    {before inner after : List Exchange} {x y : α} (hbefore : Answered (answer around) s before s₁)
    (hinner : Runs (answer around) (programs 0) s₁ inner x s₂) (hafter : Answered (answer around) s₂ after s')
    (houter : (programs 1).Yields (before ++ after) y) :
    Interleaves around others programs s (Deed.amid before inner after) s' where
  history := ((History.of_answered _ hbefore).append (.of_answered _ hinner.answered)).append (.of_answered _ hafter)
  whole i hi := by
    match i with
    | 0 =>
      rw [Deed.own_inner]
      exact ⟨x, hinner.yields⟩
    | 1 =>
      rw [Deed.own_outer]
      exact ⟨y, houter⟩
    | i + 2 => simp [Deed.amid, Deed.own_append, Deed.own_other] at hi
  elsewhere d hd hnone := by
    simp only [Deed.amid, List.mem_append, List.mem_map] at hd
    obtain (⟨e, -, rfl⟩ | ⟨e, -, rfl⟩) | ⟨e, -, rfl⟩ := hd <;> cases hnone

end Service
end Outreach
