import Outreach.Engine.Inbox
import Outreach.Engine.Intake
import Outreach.Engine.Sweep
import Outreach.Service.Basic
import Outreach.Web.Duty

/-! Answering requests: a duty is done, and what came of it is told. -/
namespace Outreach

def IntakeOutcome.acknowledgement : IntakeOutcome → Json
  | .sampleCaptured id => .obj [("status", .str "sample_captured"), ("automationId", .str id.text)]
  | .dispatched contact created reports =>
    .obj [("status", .str "dispatched"), ("contactId", .int contact), ("contactCreated", .bool created),
      ("runs", .nat (reports.foldl (fun n r => n + r.runs.length) 0))]

namespace Web

abbrev Reply := Nat × Content

def Refusal.reply (r : Refusal) : Reply := (r.status, .error r.code r.message)

def replyOf {ε α : Type} (refusal : ε → Refusal) (encode : α → Json) : Except ε α → Reply
  | .ok a => (200, .data (encode a))
  | .error e => (refusal e).reply

def Duty.program (settings : EngineSettings) (limit : Nat) : Duty → Program Reply
  | .respond status content => pure (status, content)
  | .refuse r => pure r.reply
  | .health => pure (200, .data (.obj [("status", .str "ok"), ("version", .str Service.version)]))
  | .sweep => do return replyOf .sweep SweepSummary.encode (← (Outreach.sweep settings limit).run)
  | .intake id body => do
    return replyOf .intake IntakeOutcome.acknowledgement (← (Intake.handle settings limit id body).run)
  | .deliver n => do
    let _ ← Inbox.process settings limit n
    return (200, .data received)

def millisecondsBetween (a b : Instant) : Nat :=
  (((b.seconds - a.seconds) * 1000000000 + (b.nanos - a.nanos : Int)) / 1000000).toNat

end Web

def Service.respond (around : Surroundings) (r : Web.Request) (s : Service) : Option (Web.Response × Service) := do
  let (start, s) := s.tick
  let (id, s) := s.freshId
  let duty := Web.duty around.config r
  let ((status, content), s) ← s.perform around (duty.program around.settings around.limit)
  let (now, s) := s.tick
  return ((content.response status ⟨id, now, Web.millisecondsBetween start now⟩).sentTo r.method, s)

end Outreach
