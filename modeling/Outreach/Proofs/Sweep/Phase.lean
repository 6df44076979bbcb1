import Outreach.Engine.Sweep
import Outreach.Proofs.Engine.Run

/-! A sweep as a machine that asks for one thing in each phase. The machine is the program: the two ask for
the same and go on alike. -/
namespace Outreach

inductive SweepEvent where
  | listed (due : List ScheduledTask)
  | listingFailed (e : RepositoryError)
  | won (t : ScheduledTask)
  | lost (t : ScheduledTask)
  | refused (t : ScheduledTask) (e : RepositoryError)
  | ran (t : ScheduledTask) (r : Request)
  | recorded (t : ScheduledTask) (status : TaskStatus) (error : Option String)

/-- Where a sweep stands; `rest` are the tasks that come after `t`. -/
inductive SweepPhase where
  | starting
  | listing (now : Instant)
  | claiming (t : ScheduledTask) (rest : List ScheduledTask) (s : SweepSummary)
  | resuming (t : ScheduledTask) (rest : List ScheduledTask) (s : SweepSummary) (run : Program (Except String Unit))
  /-- About to record how a resumed run ended, or that the task could not be claimed. -/
  | recording (t : ScheduledTask) (rest : List ScheduledTask) (s : SweepSummary) (failure : Option String)
  | ended (result : Except SweepError SweepSummary)

namespace SweepSummary

def count (s : SweepSummary) : Option String → SweepSummary
  | none => { s with processed := s.processed + 1 }
  | some _ => { s with failed := s.failed + 1 }

def skip (s : SweepSummary) : SweepSummary := { s with skipped := s.skipped + 1 }

end SweepSummary

def statusAfter : Option String → TaskStatus
  | none => .processed
  | some _ => .failed

namespace SweepPhase

def goOn (s : SweepSummary) : List ScheduledTask → SweepPhase
  | [] => .ended (.ok s)
  | t :: rest => .claiming t rest s

def failure? : Except String Unit → Option String
  | .ok () => none
  | .error m => some m

def follow (t : ScheduledTask) (rest : List ScheduledTask) (s : SweepSummary) :
    Program (Except String Unit) → SweepPhase
  | .done x => .recording t rest s (failure? x)
  | p => .resuming t rest s p

variable (settings : EngineSettings) (limit : Nat)

def afterListing : Except RepositoryError (List ScheduledTask) → SweepPhase × List SweepEvent
  | .ok due => (goOn ⟨0, 0, 0⟩ due, [.listed due])
  | .error e => (.ended (.error ⟨e⟩), [.listingFailed e])

def afterClaim (t : ScheduledTask) (rest : List ScheduledTask) (s : SweepSummary) :
    Except RepositoryError Bool → SweepPhase × List SweepEvent
  | .ok true => (follow t rest s (t.resume settings limit).run, [.won t])
  | .ok false => (goOn s.skip rest, [.lost t])
  | .error e => (.recording t rest s (some e.message), [.refused t e])

def ask? : SweepPhase → Option ((r : Request) × (r.Reply → SweepPhase × List SweepEvent))
  | .starting => some ⟨.now, fun now => (.listing now, [])⟩
  | .listing now => some ⟨.dueTasks now, afterListing⟩
  | .claiming t rest s => some ⟨.claimTask t.id, afterClaim settings limit t rest s⟩
  | .resuming t rest s (.ask r next) => some ⟨r, fun x => (follow t rest s (next x), [.ran t r])⟩
  | .resuming _ _ _ _ => none
  | .recording t rest s failure =>
    some ⟨.updateTask t.id (statusAfter failure) failure,
      fun _ => (goOn (s.count failure) rest, [.recorded t (statusAfter failure) failure])⟩
  | .ended _ => none

open ScheduledTask

def settling (s : SweepSummary) (rest : List ScheduledTask) : Program (Except SweepError SweepSummary) :=
  (Attempt.always (settleAll settings limit s rest) : Attempt SweepError SweepSummary).run

def recordThen (t : ScheduledTask) (rest : List ScheduledTask) (s : SweepSummary) (failure : Option String) :
    Program (Except SweepError SweepSummary) := do
  t.finish (statusAfter failure) failure
  settling settings limit (s.count failure) rest

def program : SweepPhase → Program (Except SweepError SweepSummary)
  | .starting => (sweep settings limit).run
  | .listing now => (do
      let due ← Attempt.of SweepError.mk (.request (.dueTasks now))
      Attempt.always (settleAll settings limit ⟨0, 0, 0⟩ due) : Attempt SweepError SweepSummary).run
  | .claiming t rest s => settling settings limit s (t :: rest)
  | .resuming t rest s run => do recordThen settings limit t rest s (failure? (← run))
  | .recording t rest s failure => recordThen settings limit t rest s failure
  | .ended result => .done result

variable {settings limit}

theorem program_goOn (s : SweepSummary) (rest : List ScheduledTask) :
    (goOn s rest).program settings limit = settling settings limit s rest := by
  cases rest <;> rfl

theorem program_follow (t : ScheduledTask) (rest : List ScheduledTask) (s : SweepSummary)
    (run : Program (Except String Unit)) : (follow t rest s run).program settings limit =
      run >>= fun x => recordThen settings limit t rest s (failure? x) := by
  cases run <;> rfl

theorem settling_cons (t : ScheduledTask) (rest : List ScheduledTask) (s : SweepSummary) :
    settling settings limit s (t :: rest) = .ask (.claimTask t.id) fun x =>
      (afterClaim settings limit t rest s x).1.program settings limit := by
  refine congrArg (Program.ask _) (funext fun x => ?_)
  match x with
  | .ok false => exact (program_goOn _ _).symm
  | .error e => rfl
  | .ok true =>
    rw [afterClaim, program_follow]
    change (((t.resume settings limit).run >>= _) >>= _) >>= _ = _
    rw [Program.bind_bind, Program.bind_bind]
    refine congrArg (Program.bind _) (funext fun y => ?_)
    cases y <;> rfl

theorem recordThen_eq (t : ScheduledTask) (rest : List ScheduledTask) (s : SweepSummary) (failure : Option String) :
    recordThen settings limit t rest s failure = .ask (.updateTask t.id (statusAfter failure) failure) fun _ =>
      (goOn (s.count failure) rest).program settings limit := by
  rw [program_goOn]
  rfl

/-- In each phase the program asks for what the machine asks for, and goes on as it does. -/
theorem program_eq_ask {φ : SweepPhase} {r : Request} {next : r.Reply → SweepPhase × List SweepEvent}
    (h : φ.ask? settings limit = some ⟨r, next⟩) :
    φ.program settings limit = .ask r fun x => (next x).1.program settings limit := by
  cases φ with
  | starting =>
    cases h
    rfl
  | listing now =>
    cases h
    refine congrArg (Program.ask _) (funext fun x => ?_)
    cases x with
    | ok due => exact (program_goOn _ _).symm
    | error e => rfl
  | claiming t rest s =>
    cases h
    exact settling_cons t rest s
  | resuming t rest s run =>
    cases run with
    | ask r k =>
      cases h
      exact congrArg (Program.ask _) (funext fun x => (program_follow t rest s (k x)).symm)
    | done x => cases h
    | endless => cases h
  | recording t rest s failure =>
    cases h
    exact recordThen_eq t rest s failure
  | ended result => cases h

end SweepPhase

def Request.IsClaiming : Request → Prop
  | .claimTask _ | .updateTask .. => True
  | _ => False

def Terms.withoutClaims : Terms := ⟨fun r => ¬ r.IsClaiming, fun _ _ => True⟩

theorem Request.IsPlain.not_claiming {r : Request} (h : r.IsPlain) : ¬ r.IsClaiming := by
  cases r <;> first | exact id | exact h.elim

namespace ScheduledTask

theorem load_meets {c : Terms} {α : Type} {P : α → Prop} (what : String) {p : Program (Except RepositoryError (Option α))}
    (h : p.Meets c fun x => ∀ a, x = .ok (some a) → P a) : Attempt.Meets c P (load what p) := by
  have hfound : Attempt.Meets c (fun found => ∀ a, found = some a → P a) (Attempt.of RepositoryError.message p) :=
    Attempt.meets_of (Program.meets_mono h fun x hx found hfound a ha => hx a (by rw [hfound, ha]))
  unfold load
  refine Attempt.meets_bind hfound fun found hfound => ?_
  split
  · exact Attempt.meets_pure (hfound _ rfl)
  · exact Attempt.meets_throw

/-- Resuming looks up what the task refers to, and then asks for what the frame needs. -/
theorem resume_meets_within (settings : EngineSettings) (limit : Nat) {c : Terms} {t : ScheduledTask}
    (hautomation : c.asks (.getAutomation t.automationId)) (hcontact : c.asks (.getContact t.contactId))
    (hconnection : c.asks (.getConnection t.connectionId))
    (hruns : ∀ automation contact connection, c.answers (.getAutomation t.automationId) (.ok (some automation)) →
      c.answers (.getContact t.contactId) (.ok (some contact)) →
      (RunFrame.mk automation contact t.context connection (forwardDepth t.context)).Needs settings c) :
    Attempt.Meets c (fun _ => True) (t.resume settings limit) := by
  unfold resume
  refine Attempt.meets_bind (load_meets _ (Program.meets_request hautomation fun x hx a ha => ha ▸ hx))
    fun automation hfoundAutomation => ?_
  refine Attempt.meets_bind (load_meets _ (Program.meets_request hcontact fun x hx a ha => ha ▸ hx))
    fun contact hfoundContact => ?_
  refine Attempt.meets_bind (P := fun _ => True) (load_meets _ (Program.meets_request hconnection fun _ _ _ _ => trivial))
    fun connection _ => ?_
  have hneeds := hruns automation contact connection hfoundAutomation hfoundContact
  refine Attempt.meets_bind (Attempt.meets_of_trivial ?_) fun _ _ => Attempt.meets_pure trivial
  exact Program.meets_mono (RunFrame.run_meets_of hneeds limit _) fun _ _ => trivial

/-- Resuming keeps to the terms of the runs with the context of the task. -/
theorem resume_meets_of (settings : EngineSettings) (limit : Nat) {c : Terms}
    (hplain : ∀ r : Request, r.IsPlain → c.asks r) {t : ScheduledTask}
    (hruns : ∀ automation contact connection,
      (RunFrame.mk automation contact t.context connection (forwardDepth t.context)).Permits settings c) :
    Attempt.Meets c (fun _ => True) (t.resume settings limit) :=
  resume_meets_within settings limit (hplain _ trivial) (hplain _ trivial) (hplain _ trivial)
    fun automation contact connection _ _ => (hruns automation contact connection).needs

theorem resume_meets (settings : EngineSettings) (limit : Nat) (t : ScheduledTask) :
    Attempt.Meets .withoutClaims (fun _ => True) (t.resume settings limit) := by
  have hplain : ∀ r : Request, r.IsPlain → Terms.withoutClaims.asks r := fun _ => Request.IsPlain.not_claiming
  exact resume_meets_of settings limit hplain fun _ _ _ => ⟨hplain, fun _ _ _ h => h, fun _ _ h => h⟩

end ScheduledTask
end Outreach
