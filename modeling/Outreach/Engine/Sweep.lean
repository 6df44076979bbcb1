import Outreach.Engine.Run

/-! Resuming suspended runs whose time has come. -/
namespace Outreach

structure SweepSummary where
  processed : Nat
  failed : Nat
  /-- Taken by another sweep first. -/
  skipped : Nat
  deriving DecidableEq, Repr

def SweepSummary.encode (s : SweepSummary) : Json :=
  .obj [("processed", .nat s.processed), ("failed", .nat s.failed), ("skipped", .nat s.skipped)]

namespace ScheduledTask
variable (settings : EngineSettings) (limit : Nat)

def load {α : Type} (what : String) (p : Program (Except RepositoryError (Option α))) : Attempt String α := do
  match ← Attempt.of RepositoryError.message p with
  | some a => return a
  | none => throw (what ++ " not found")

def resume (t : ScheduledTask) : Attempt String Unit := do
  let automation ← load ("automation " ++ t.automationId.text) (.request (.getAutomation t.automationId))
  let contact ← load ("contact " ++ Text.decimalInt t.contactId) (.request (.getContact t.contactId))
  let connection ← load ("connection " ++ t.connectionId.text) (.request (.getConnection t.connectionId))
  let _ ← Attempt.of RunError.message
    (execute settings limit automation contact t.context connection (some t.resumeFromNodeId)).run

/-- Records how a task ended; a failure to do so is passed over. -/
def finish (t : ScheduledTask) (status : TaskStatus) (error : Option String) : Program Unit := do
  let _ ← Program.request (.updateTask t.id status error)

def settle (t : ScheduledTask) (s : SweepSummary) : Program SweepSummary := do
  match ← Program.request (.claimTask t.id) with
  | .ok false => return { s with skipped := s.skipped + 1 }
  | .error e =>
    t.finish .failed (some e.message)
    return { s with failed := s.failed + 1 }
  | .ok true =>
    match ← (t.resume settings limit).run with
    | .ok () =>
      t.finish .processed none
      return { s with processed := s.processed + 1 }
    | .error m =>
      t.finish .failed (some m)
      return { s with failed := s.failed + 1 }

def settleAll (s : SweepSummary) : List ScheduledTask → Program SweepSummary
  | [] => pure s
  | t :: rest => do settleAll (← t.settle settings limit s) rest

end ScheduledTask

def sweep (settings : EngineSettings) (limit : Nat) : Attempt SweepError SweepSummary := do
  let now ← Attempt.always (.request .now)
  let due ← Attempt.of SweepError.mk (.request (.dueTasks now))
  Attempt.always (ScheduledTask.settleAll settings limit ⟨0, 0, 0⟩ due)

end Outreach
