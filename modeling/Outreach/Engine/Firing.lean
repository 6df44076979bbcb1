import Outreach.Engine.Matching
import Outreach.Engine.Run

/-! Firing an event for a contact: every matching automation runs, one after the other. -/
namespace Outreach

inductive Scope where
  /-- Those of the contact's owner, over the owner's first connection. -/
  | contactOwner
  | user (id : Uuid) (connection : Option Connection)
  | allUsers (connection : Option Connection)

inductive SkipReason where
  | contactMissing
  | optedOut
  | noConnection
  deriving DecidableEq, Repr

def SkipReason.text : SkipReason → String
  | .contactMissing => "ContactMissing"
  | .optedOut => "OptedOut"
  | .noConnection => "NoConnection"

structure DispatchReport where
  matched : List Uuid
  runs : List RunReport
  failures : List (Uuid × String)
  skipped : Option SkipReason

def DispatchReport.skip (r : SkipReason) : DispatchReport := ⟨[], [], [], some r⟩

def Scope.audience (c : Contact) : Scope → Audience
  | .contactOwner => .user c.userId
  | .user id _ => .user id
  | .allUsers _ => .all

def Scope.connection? : Scope → Option Connection
  | .contactOwner => none
  | .user _ c => c
  | .allUsers c => c

variable (settings : EngineSettings) (limit : Nat)

def runEach (contact : Contact) (context : Json) (connection : Connection) (report : DispatchReport) :
    List Automation → Program DispatchReport
  | [] => pure report
  | a :: rest => do
    match ← (execute settings limit a contact context connection none).run with
    | .ok run => runEach contact context connection { report with runs := report.runs ++ [run] } rest
    | .error e =>
      runEach contact context connection { report with failures := report.failures ++ [(a.id, e.message)] } rest

def fire (event : Event) (contactId : Int) (scope : Scope) : Attempt FireError DispatchReport := do
  match ← Attempt.of .contact (.request (.getContact contactId)) with
  | none => return .skip .contactMissing
  | some contact =>
    if contact.isOptedOut then return .skip .optedOut
    let connection ← match scope.connection? with
      | some c => pure (some c)
      | none => Attempt.of .connection (.request (.firstConnection contact.userId))
    match connection with
    | none => return .skip .noConnection
    | some connection =>
      let automations ← Attempt.of .automations (.request (.listAutomations (scope.audience contact)))
      let matched := selectAutomations automations event contact
      Attempt.always (runEach settings limit contact (event.context contactId) connection
        ⟨matched.map (·.id), [], [], none⟩ matched)

end Outreach
