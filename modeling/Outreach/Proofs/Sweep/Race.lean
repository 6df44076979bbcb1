import Mathlib.Logic.Function.Basic
import Mathlib.Logic.Relation
import Outreach.Proofs.Service.Answers
import Outreach.Proofs.Sweep.Log

/-! Any number of sweeps over one queue, in any order of their steps and beside anybody else. Only the claim
decides who works on a task: it is won once, and whoever has won a task finds it as it was left. -/
namespace Outreach
open SweepEvent Service Database

structure Race where
  service : Service
  sweeps : Nat → Sweeper

namespace Race

/-- One request of a sweep, answered, or failed without effect where storage may fail; or one of anybody else,
who makes no claims. -/
inductive Step (around : Surroundings) (faulty : Prop) : Race → Race → Prop where
  | answered {s : Race} {service : Service} {r : Request} {x : r.Reply} (i : Nat)
    {next : r.Reply → SweepPhase × List SweepEvent}
    (asks : (s.sweeps i).phase.ask? around.settings around.limit = some ⟨r, next⟩)
    (answers : Answers around r s.service x service) :
    Step around faulty s ⟨service, Function.update s.sweeps i ((s.sweeps i).after (next x))⟩
  | failed {s : Race} {r : Request} {x : r.Reply} (i : Nat) {next : r.Reply → SweepPhase × List SweepEvent}
    (asks : (s.sweeps i).phase.ask? around.settings around.limit = some ⟨r, next⟩)
    (may : faulty) (fault : r.IsFault x) :
    Step around faulty s ⟨s.service, Function.update s.sweeps i ((s.sweeps i).after (next x))⟩
  | elsewhere {s : Race} {service : Service} {r : Request} {x : r.Reply} (other : ¬ r.IsClaiming)
    (answers : Answers around r s.service x service) : Step around faulty s ⟨service, s.sweeps⟩

def Run (around : Surroundings) (faulty : Prop) : Race → Race → Prop := Relation.ReflTransGen (Step around faulty)

structure IsFresh (s : Race) : Prop where
  ids : s.service.db.TaskIds
  sweeps : ∀ i, s.sweeps i = .start

def tasks (s : Race) : List TaskRow := s.service.db.tasks

def wonBy (s : Race) (i : Nat) : List Int := (s.sweeps i).log.filterMap won?

def Refused (s : Race) (id : Int) : Prop := ∃ i, id ∈ (s.sweeps i).log.filterMap refused?

variable (around : Surroundings)

def turn (s : Race) (i : Nat) (fault : Option RepositoryError) : Race :=
  match (s.sweeps i).phase.ask? around.settings around.limit, fault with
  | some ⟨r, next⟩, none =>
    let (x, service) := answer around r s.service
    ⟨service, Function.update s.sweeps i ((s.sweeps i).after (next x))⟩
  | some ⟨.claimTask _, next⟩, some e =>
    ⟨s.service, Function.update s.sweeps i ((s.sweeps i).after (next (.error e)))⟩
  | _, _ => s

def play (s : Race) (turns : List (Nat × Option RepositoryError)) : Race :=
  turns.foldl (fun s t => s.turn around t.1 t.2) s

variable {around}

theorem run_turn (s : Race) (i : Nat) {fault : Option RepositoryError} {faulty : Prop}
    (may : fault.isSome = true → faulty) : Run around faulty s (s.turn around i fault) := by
  unfold turn
  split
  · rename_i r next asks
    exact .single (.answered i asks ⟨s.service.clock, around.network, s.service.seed, rfl⟩)
  · rename_i id next e asks
    exact .single (.failed i asks (may rfl) ⟨e, rfl⟩)
  · exact .refl

theorem run_play (s : Race) (turns : List (Nat × Option RepositoryError)) {faulty : Prop}
    (may : ∀ t ∈ turns, t.2.isSome = true → faulty) : Run around faulty s (s.play around turns) := by
  induction turns generalizing s with
  | nil => exact .refl
  | cons t turns ih =>
    have hfirst : Run around faulty s (s.turn around t.1 t.2) := run_turn s t.1 (may t List.mem_cons_self)
    exact hfirst.trans (ih _ fun u hu => may u (List.mem_cons_of_mem _ hu))

end Race

def SweepEvent.IsQuiet : SweepEvent → Prop
  | .won _ | .refused _ _ => False
  | .listed due => (due.map (·.id)).Nodup
  | _ => True

inductive Turn (faulty : Prop) (a b : Database) (w w' : Sweeper) : Prop where
  | quiet {now : Instant} {r : Request} (other : ¬ r.IsClaiming) (moves : TasksMove now r a b)
    (told : List SweepEvent) (log : w'.log = w.log ++ told) (quiet : ∀ e ∈ told, e.IsQuiet)
    (current : w'.phase.current = none ∨ w'.phase.current = w.phase.current)
  | won {now : Instant} (t : ScheduledTask) (pending : ∃ row ∈ a.tasks, row.id = t.id ∧ isPending row = true)
    (moves : TasksMove now (.claimTask t.id) a b) (log : w'.log = w.log ++ [.won t])
    (current : w'.phase.current = some t.id)
  | refused (may : faulty) (t : ScheduledTask) (e : RepositoryError) (same : a = b)
    (log : w'.log = w.log ++ [.refused t e]) (current : w'.phase.current = some t.id)
  | recorded {now : Instant} (t : ScheduledTask) (failure : Option String) (before : w.phase.current = some t.id)
    (moves : TasksMove now (.updateTask t.id (statusAfter failure) failure) a b)
    (log : w'.log = w.log ++ [.recorded t (statusAfter failure) failure]) (current : w'.phase.current = none)

theorem TaskRow.under_of_not_claiming {r : Request} (h : ¬ r.IsClaiming) (row : TaskRow) : row.under r = row := by
  cases r <;> first | rfl | exact absurd trivial h

theorem tasksMove_refl {r : Request} (h : ¬ r.IsClaiming) (now : Instant) (a : Database) : TasksMove now r a a :=
  tasksMove_of_same (TaskRow.under_of_not_claiming h) (.refl a)

variable {around : Surroundings} {faulty : Prop}

namespace Race
variable {s s' : Race}

theorem turn_of_answered {w : Sweeper} {a b : Service} {r : Request} {x : r.Reply}
    {next : r.Reply → SweepPhase × List SweepEvent} (hids : a.db.TaskIds)
    (htells : w.Tells around.settings around.limit)
    (hask : w.phase.ask? around.settings around.limit = some ⟨r, next⟩) (h : Answers around r a x b) :
    Turn faulty a.db b.db w (w.after (next x)) := by
  obtain ⟨phase, log⟩ := w
  obtain ⟨now, hmoves⟩ := h.moves
  -- Only claims and recorded ends change a task; in the other phases the turn is a quiet one.
  cases phase with
  | starting =>
    cases hask
    exact .quiet id hmoves [] rfl (List.forall_mem_nil _) (.inl rfl)
  | listing t =>
    cases hask
    cases x with
    | ok due =>
      have hdue : (due.map (·.id)).Nodup := dueTasks_nodup hids h.due.symm
      exact .quiet id hmoves [.listed due] rfl (List.forall_mem_singleton.mpr hdue)
        (.inl (SweepPhase.current_goOn _ _))
    | error e => exact .quiet id hmoves [.listingFailed e] rfl (List.forall_mem_singleton.mpr trivial) (.inl rfl)
  | claiming t rest s =>
    cases hask
    match x with
    | .ok true =>
      exact .won t h.won hmoves rfl (SweepPhase.current_follow t rest s (t.resume around.settings around.limit).run)
    | .ok false =>
      obtain ⟨now, hmoves⟩ := h.lost
      exact .quiet id hmoves [.lost t] rfl (List.forall_mem_singleton.mpr trivial)
        (.inl (SweepPhase.current_goOn _ _))
    | .error e =>
      cases h.claim
  | resuming t rest s run =>
    cases run with
    | ask r' k =>
      cases hask
      obtain ⟨due, l, rs, -, -, hrun⟩ := htells
      have hmeets := Program.meets_of_leads (t.resume_meets _ _) (fun _ _ => trivial) hrun
      exact .quiet hmeets.1 hmoves [.ran t r] rfl (List.forall_mem_singleton.mpr trivial)
        (.inr (SweepPhase.current_follow t rest s _))
    | done y => cases hask
    | endless => cases hask
  | recording t rest s failure =>
    cases hask
    exact .recorded t failure rfl hmoves rfl (SweepPhase.current_goOn _ _)
  | ended result => cases hask

theorem turn_of_failed {w : Sweeper} {a : Service} {r : Request} {x : r.Reply}
    {next : r.Reply → SweepPhase × List SweepEvent} (may : faulty)
    (hask : w.phase.ask? around.settings around.limit = some ⟨r, next⟩) (h : r.IsFault x) :
    Turn faulty a.db a.db w (w.after (next x)) := by
  have hstill : TasksMove a.clock .now a.db a.db := tasksMove_refl id a.clock a.db
  obtain ⟨phase, log⟩ := w
  cases phase with
  | starting => cases hask; exact h.elim
  | listing t =>
    cases hask
    obtain ⟨e, rfl⟩ := h
    exact .quiet id hstill [.listingFailed e] rfl (List.forall_mem_singleton.mpr trivial) (.inl rfl)
  | claiming t rest s =>
    cases hask
    obtain ⟨e, rfl⟩ := h
    exact .refused may t e rfl rfl rfl
  | resuming t rest s run =>
    cases run with
    | ask r' k =>
      cases hask
      exact .quiet id hstill [.ran t r] rfl (List.forall_mem_singleton.mpr trivial)
        (.inr (SweepPhase.current_follow t rest s _))
    | done y => cases hask
    | endless => cases hask
  | recording t rest s failure =>
    cases hask
    exact .quiet id hstill [.recorded t (statusAfter failure) failure] rfl (List.forall_mem_singleton.mpr trivial)
      (.inl (SweepPhase.current_goOn _ _))
  | ended result => cases hask

/-- Each step is the turn of one sweep; what happens elsewhere is a turn of any sweep in which it does nothing. -/
theorem Step.turn (h : Step around faulty s s') (hids : s.service.db.TaskIds)
    (htells : ∀ i, (s.sweeps i).Tells around.settings around.limit) :
    ∃ i w', s'.sweeps = Function.update s.sweeps i w' ∧ w'.Tells around.settings around.limit ∧
      Turn faulty s.service.db s'.service.db (s.sweeps i) w' := by
  cases h with
  | answered i asks answers =>
    exact ⟨i, _, rfl, Sweeper.tells_after (htells i) asks _, turn_of_answered hids (htells i) asks answers⟩
  | failed i asks may fault =>
    exact ⟨i, _, rfl, Sweeper.tells_after (htells i) asks _, turn_of_failed may asks fault⟩
  | elsewhere other answers =>
    obtain ⟨now, hmoves⟩ := answers.moves
    refine ⟨0, s.sweeps 0, (Function.update_eq_self 0 s.sweeps).symm, htells 0, ?_⟩
    exact .quiet other hmoves [] (List.append_nil _).symm (List.forall_mem_nil _) (.inr rfl)

end Race
end Outreach
