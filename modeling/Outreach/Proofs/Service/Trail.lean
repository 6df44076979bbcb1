import Outreach.Proofs.Service.Scene
import Outreach.Proofs.Sweep.Outcome

/-! One program among those under way: what it asks and how it is answered lead it on, whatever the others do beside it.
While the others make no claims, what the whole log says of a task is what the one program says of it. -/
namespace Outreach
open Service

namespace Program
variable {α β : Type} {p q : Program α} {l l' : List Exchange}

inductive Goes (p : Program α) : List Exchange → Program α → Prop where
  | refl : Goes p [] p
  | answered {l : List Exchange} {r : Request} {next : r.Reply → Program α} (before : Goes p l (.ask r next))
    (x : r.Reply) : Goes p (l ++ [⟨r, x⟩]) (next x)

/-- With these answers the program asks for just that, and then goes on without end. -/
def Sticks : Program α → List Exchange → Prop
  | .done _, _ => False
  | .ask r next, l => ∃ x rest, l = ⟨r, x⟩ :: rest ∧ (next x).Sticks rest
  | .endless, l => l = []

theorem Goes.yields_append (h : p.Goes l q) {a : α} (hq : q.Yields l' a) : p.Yields (l ++ l') a := by
  induction h generalizing l' with
  | refl => exact hq
  | answered before x ih =>
    rw [List.append_assoc]
    exact ih ⟨x, l', rfl, hq⟩

theorem Goes.yields {a : α} (h : p.Goes l (.done a)) : p.Yields l a := List.append_nil l ▸ h.yields_append ⟨rfl, rfl⟩

theorem Goes.sticks_append (h : p.Goes l q) (hq : q.Sticks l') : p.Sticks (l ++ l') := by
  induction h generalizing l' with
  | refl => exact hq
  | answered before x ih =>
    rw [List.append_assoc]
    exact ih ⟨x, l', rfl, hq⟩

theorem Goes.sticks (h : p.Goes l .endless) : p.Sticks l := List.append_nil l ▸ h.sticks_append rfl

/-- Of two parts the first goes on without end, or the second does after it. -/
theorem sticks_bind {f : α → Program β} : (p >>= f).Sticks l ↔
    p.Sticks l ∨ ∃ a l₁ l₂, l = l₁ ++ l₂ ∧ p.Yields l₁ a ∧ (f a).Sticks l₂ := by
  induction p generalizing l with
  | done a =>
    constructor
    · exact fun h => .inr ⟨a, [], l, rfl, ⟨rfl, rfl⟩, h⟩
    · rintro (h | ⟨a', l₁, l₂, rfl, ⟨rfl, rfl⟩, h⟩)
      · exact h.elim
      · exact h
  | ask r next ih =>
    constructor
    · rintro ⟨x, rest, rfl, h⟩
      obtain h | ⟨a, l₁, l₂, rfl, hp, hf⟩ := (ih x).mp h
      · exact .inl ⟨x, rest, rfl, h⟩
      · exact .inr ⟨a, ⟨r, x⟩ :: l₁, l₂, rfl, ⟨x, l₁, rfl, hp⟩, hf⟩
    · rintro (⟨x, rest, rfl, h⟩ | ⟨a, l₁, l₂, rfl, ⟨x, rest, rfl, hp⟩, hf⟩)
      · exact ⟨x, rest, rfl, (ih x).mpr (.inl h)⟩
      · exact ⟨x, rest ++ l₂, rfl, (ih x).mpr (.inr ⟨a, rest, l₂, rfl, hp, hf⟩)⟩
  | endless =>
    constructor
    · exact .inl
    · rintro (h | ⟨a, l₁, l₂, -, h, -⟩)
      · exact h
      · exact h.elim

/-- What ends at once after its request does not go on without end. -/
theorem sticks_of_request_bind {r : Request} {f : r.Reply → Program β} (h : (request r >>= f).Sticks l) :
    ∃ x rest, l = ⟨r, x⟩ :: rest ∧ (f x).Sticks rest := h

end Program

namespace ScheduledTask
variable {settings : EngineSettings} {limit : Nat} {t : ScheduledTask} {l : List Exchange}

theorem not_sticks_finish {status : TaskStatus} {error : Option String} : ¬ (t.finish status error).Sticks l := by
  intro h
  obtain ⟨x, rest, -, hrest⟩ := Program.sticks_of_request_bind h
  exact hrest

/-- A task that is not handled in the end is one whose run goes on. -/
theorem sticks_of_settle {s : SweepSummary} (h : (t.settle settings limit s).Sticks l) :
    ∃ part, part.Sublist l ∧ (t.resume settings limit).run.Sticks part := by
  have hlast {status : TaskStatus} {error : Option String} {s' : SweepSummary} {m : List Exchange} :
      ¬ (t.finish status error >>= fun _ => pure s').Sticks m := by
    rw [Program.sticks_bind]
    rintro (hfinish | ⟨a, l₁, l₂, -, -, hpure⟩)
    · exact not_sticks_finish hfinish
    · exact hpure
  unfold settle at h
  obtain ⟨won, rest, rfl, hrest⟩ := Program.sticks_of_request_bind h
  obtain e | _ | _ := won
  · exact absurd hrest hlast
  · exact hrest.elim
  · obtain hresume | ⟨x, l₁, l₂, rfl, -, hx⟩ := Program.sticks_bind.mp hrest
    · exact ⟨rest, List.sublist_cons_self _ _, hresume⟩
    · cases x <;> exact absurd hx hlast

theorem sticks_of_settleAll {due : List ScheduledTask} {s : SweepSummary} (h : (settleAll settings limit s due).Sticks l) :
    ∃ t ∈ due, ∃ part, part.Sublist l ∧ (t.resume settings limit).run.Sticks part := by
  induction due generalizing l s with
  | nil => exact h.elim
  | cons t rest ih =>
    obtain hfirst | ⟨s₁, l₁, l₂, rfl, -, hrest⟩ := Program.sticks_bind.mp h
    · obtain ⟨part, hpart, hsticks⟩ := sticks_of_settle hfirst
      exact ⟨t, List.mem_cons_self, part, hpart, hsticks⟩
    · obtain ⟨u, hu, part, hpart, hsticks⟩ := ih hrest
      exact ⟨u, List.mem_cons_of_mem _ hu, part, hpart.trans (List.sublist_append_right _ _), hsticks⟩

end ScheduledTask

theorem ForwardedRun.program_meets (around : Surroundings) (run : ForwardedRun) :
    (run.program around).Meets .withoutClaims fun _ => True := by
  have hplain : ∀ r : Request, r.IsPlain → Terms.withoutClaims.asks r := fun _ => Request.IsPlain.not_claiming
  refine Program.meets_bind (P := fun _ => True) (Program.meets_bind (P := fun _ => True) ?_ fun _ _ => trivial)
    fun _ _ => trivial
  exact Program.meets_mono (RunFrame.run_meets ⟨hplain, fun _ _ _ h => h, fun _ _ h => h⟩ around.limit none)
    fun _ _ => trivial

namespace Scene
variable {around : Surroundings} {p : Program Upshot} {before own : List Exchange} {s s' : Scene}

structure Trail (p : Program Upshot) (before own : List Exchange) (s : Scene) : Prop where
  running : ∃ q rest, s.running = q :: rest ∧ p.Goes own q ∧
    ∀ other ∈ rest, Program.Meets .withoutClaims (fun _ => True) other
  told : ∃ later, s.log = before ++ later ∧ own.Sublist later ∧
    ∀ id, later.filter (Exchange.isAbout id) = own.filter (Exchange.isAbout id)

theorem Trail.start {s : Scene} (h : s.running = [p]) : s.Trail p s.log [] where
  running := ⟨p, [], h, .refl, List.forall_mem_nil _⟩
  told := ⟨[], (List.append_nil _).symm, .refl _, fun _ => rfl⟩

/-- One more exchange, of the first program or of another. -/
theorem Trail.exchanged (h : s.Trail p before own) {i : Nat} {r : Request} {next : r.Reply → Program Upshot}
    (hasks : s.running[i]? = some (.ask r next)) (x : r.Reply) (service : Service) :
    ∃ own', Trail p before own' ⟨service, s.running.set i (next x), s.log ++ [⟨r, x⟩]⟩ := by
  obtain ⟨q, rest, hrunning, hgoes, hothers⟩ := h.running
  obtain ⟨later, hlog, hsub, habout⟩ := h.told
  rw [hrunning] at hasks
  cases i with
  | zero =>
    obtain rfl : q = .ask r next := Option.some.inj hasks
    refine ⟨own ++ [⟨r, x⟩], ⟨next x, rest, by rw [hrunning]; rfl, hgoes.answered x, hothers⟩, later ++ [⟨r, x⟩], ?_⟩
    refine ⟨by rw [hlog, List.append_assoc], hsub.append (.refl _), fun id => ?_⟩
    rw [List.filter_append, List.filter_append, habout]
  | succ i =>
    have hother := hothers _ (List.mem_of_getElem? hasks)
    refine ⟨own, ⟨q, rest.set i (next x), by rw [hrunning]; rfl, hgoes, fun other hmem => ?_⟩, later ++ [⟨r, x⟩], ?_⟩
    · obtain hmem | rfl := List.mem_or_eq_of_mem_set hmem
      · exact hothers other hmem
      · exact hother.2 x trivial
    · refine ⟨by rw [hlog, List.append_assoc], hsub.trans (List.sublist_append_left _ _), fun id => ?_⟩
      have hnone := Exchange.isAbout_of_not_claiming (e := ⟨r, x⟩) hother.1 id
      rw [List.filter_append, habout, List.filter_cons_of_neg (by simp [hnone]), List.filter_nil, List.append_nil]

theorem Trail.step (h : s.Trail p before own) {m : Move} (hm : ∀ o, m ≠ .begin o) (hstep : Step around s m s') :
    ∃ own', s'.Trail p before own' := by
  cases hstep with
  | stay => exact ⟨own, h⟩
  | begin o => exact absurd rfl (hm o)
  | @forward i run waits =>
    obtain ⟨q, rest, hrunning, hgoes, hothers⟩ := h.running
    refine ⟨own, ⟨q, rest ++ [run.program around], by rw [hrunning]; rfl, hgoes, ?_⟩, h.told⟩
    exact List.forall_mem_append.mpr ⟨hothers, List.forall_mem_singleton.mpr (run.program_meets around)⟩
  | answered asks answers => exact h.exchanged asks _ _
  | failed asks fails => exact h.exchanged asks _ _

theorem Trail.play (around : Surroundings) (h : s.Trail p before own) {moves : List Move} (hmoves : ∀ o, .begin o ∉ moves) :
    ∃ own', (s.play around moves).Trail p before own' := by
  induction moves generalizing s own with
  | nil => exact ⟨own, h⟩
  | cons m moves ih =>
    have hfirst : ∀ o, m ≠ .begin o := fun o heq => hmoves o (heq ▸ List.mem_cons_self)
    obtain ⟨own', h'⟩ := h.step hfirst (step_move s m)
    exact ih h' fun o ho => hmoves o (List.mem_cons_of_mem _ ho)

/-- Answered again and again, the first program comes to its end, or goes on without one. -/
theorem exists_end (around : Surroundings) (clock : Instant) (network : Network) (seed : Nat) {rest : List (Program Upshot)}
    (h : s.running = p :: rest) : ∃ n q, (s.play around (.replicate n (.answer 0 clock network seed))).running[0]? = some q ∧
      (q = .endless ∨ ∃ x, q = .done x) := by
  induction p generalizing s with
  | done x => exact ⟨0, .done x, by simp [play, h], .inr ⟨x, rfl⟩⟩
  | endless => exact ⟨0, .endless, by simp [play, h], .inl rfl⟩
  | ask r next ih =>
    obtain ⟨x, service, hx⟩ : ∃ x service, answer { around with network := network } r
        { s.service with clock := clock, seed := seed } = (x, service) := ⟨_, _, rfl⟩
    have hmove := move_answer (s := s) (i := 0) (by rw [h]; rfl) clock network seed hx
    obtain ⟨n, q, hq, hend⟩ := ih x (s := s.move around (.answer 0 clock network seed)) (by rw [hmove, h]; rfl)
    exact ⟨n + 1, q, hq, hend⟩

end Scene
end Outreach
