import Outreach.Engine.Cron
import Outreach.Text.Lower

/-! When sweeps happen: schedule texts, and the one job that runs on a schedule. -/
namespace Outreach
open Text

inductive ScheduleError where
  | notStarted
  | zeroInterval
  | interval (text : String)
  | unrecognized (text : String)
  | cron
  deriving DecidableEq, Repr

def ScheduleError.message : ScheduleError → String
  | .notStarted => "scheduler error: scheduler not started"
  | .zeroInterval => "invalid schedule: interval must be > 0"
  | .interval t => "invalid schedule: " ++ t
  | .unrecognized t => "invalid schedule: unrecognized schedule format: '" ++ t ++ "'"
  | .cron => "invalid schedule"

namespace Schedule

/-- The cron text of an interval; the unit may carry any number of plural endings. -/
def everyInterval (n : Nat) (unit : List Char) : Option String :=
  let stem := String.ofList (unit.reverse.dropWhile (· == 's')).reverse
  if stem = "second" then some ("*/" ++ decimal n ++ " * * * * *")
  else if stem = "minute" then some ("0 */" ++ decimal n ++ " * * * *")
  else if stem = "hour" then some ("0 0 */" ++ decimal n ++ " * * *")
  else none

def normalize (input : String) : Except ScheduleError String :=
  let trimmed := trim input
  match (words trimmed.toList).length with
  | 5 => .ok ("0 " ++ trimmed)
  | 6 => .ok trimmed
  | _ =>
    let low := lower trimmed
    if low = "every minute" ∨ low = "minutely" then .ok "0 * * * * *"
    else if low = "every hour" ∨ low = "hourly" then .ok "0 0 * * * *"
    else
      match (after? "every ".toList low.toList).map words with
      | some [count, unit] =>
        match natural? (Nat.pow 2 32) count with
        | none => .error (.interval input)
        | some 0 => .error .zeroInterval
        | some n =>
          match everyInterval n unit with
          | some cron => .ok cron
          | none => .error (.interval input)
      | _ => .error (.unrecognized trimmed)

end Schedule

structure SweepScheduler where
  started : Bool
  job : Option String
  deriving DecidableEq, Repr

namespace SweepScheduler

def new : SweepScheduler := ⟨false, none⟩

def start (s : SweepScheduler) : SweepScheduler := { s with started := true }

def stop (_ : SweepScheduler) : SweepScheduler := ⟨false, none⟩

def schedule (s : SweepScheduler) (text : String) : Except ScheduleError SweepScheduler := do
  let cron ← Schedule.normalize text
  if !s.started then throw .notStarted
  if !Cron.isValid cron then throw .cron
  return { s with job := some cron }

end SweepScheduler
end Outreach
