import Outreach.Engine.Inbox
import Outreach.Engine.Intake
import Outreach.Engine.Management
import Outreach.Engine.Sweep
import Outreach.Simulation.World

/-! The steps of a trial: things that can be done to a simulated world, and what comes of them. -/
namespace Outreach.Simulation

inductive Step where
  | fire (event : Event) (contactId : Int) (scope : Scope)
  | execute (automation : Automation) (contact : Contact) (context : Json) (connection : Connection)
      (resumeFrom : Option String)
  | act (action : Action) (contact : Contact) (context : Json) (connection : Connection)
  | evaluate (contactId : Int) (logic : Logic) (conditions : List Condition)
  | sweep
  | intake (webhookId : String) (body : Json)
  | notify (n : Notification)
  | advance (seconds : Int)
  | setNow (t : Instant)
  | fault (f : Fault)
  | reply (r : HttpReply)
  | putContact (c : Contact)
  | dropContact (id : Int)
  | create (user : Uuid) (new : NewAutomation)
  | importText (user : Uuid) (document : String)
  | exportText (id : Uuid)
  | get (id : Uuid)
  | stats (id : Uuid)
  | delete (id : Uuid)
  | list (user : Option Uuid)
  | update (a : Automation)
  | setStatus (id : Uuid) (status : AutomationStatus)

inductive Outcome where
  | dispatched (r : DispatchReport)
  | ran (r : RunReport)
  | acted (o : ActionOutcome)
  | held (b : Bool)
  | swept (s : SweepSummary)
  | takenIn (o : IntakeOutcome)
  | noticed (s : InboxSummary)
  | time (t : Instant)
  | created (a : Automation)
  | found (a : Automation)
  | listed (as : List Automation)
  | text (s : String)
  | stats (s : ExecutionStats)
  | ok
  | nothing

inductive Failure where
  | fire (e : FireError)
  | run (e : RunError)
  | action (e : ActionError)
  | condition (e : ConditionError)
  | sweep (e : SweepError)
  | intake (e : IntakeError)
  | management (e : ManagementError)

structure Trial where
  settings : EngineSettings
  limit : Nat
  world : World

namespace Trial

def attempt {ε α : Type} (t : Trial) (failure : ε → Failure) (outcome : α → Outcome) (p : Attempt ε α) :
    Option (Except Failure Outcome × World) := do
  let (r, w) ← p.run.runSettled t.settings t.limit World.answer World.backlog t.world
  return (match r with
    | .ok a => .ok (outcome a)
    | .error e => .error (failure e), w)

def perform (t : Trial) : Step → Option (Except Failure Outcome × World)
  | .fire e c s => t.attempt .fire .dispatched (Outreach.fire t.settings t.limit e c s)
  | .execute a c ctx conn r => t.attempt .run .ran (Outreach.execute t.settings t.limit a c ctx conn r)
  | .act a c ctx conn => t.attempt .action .acted (a.perform t.settings c ctx conn)
  | .evaluate c l cs =>
    t.attempt .condition .held (Outreach.evaluate c l (t.world.now.inZone t.settings.zone) cs)
  | .sweep => t.attempt .sweep .swept (Outreach.sweep t.settings t.limit)
  | .intake w b => t.attempt .intake .takenIn (Intake.handle t.settings t.limit w b)
  | .notify n => t.attempt .management .noticed (Attempt.always (Inbox.process t.settings t.limit n))
  | .advance s => do
    let now ← t.world.now.addSeconds? s
    return (.ok (.time now), { t.world with now := now })
  | .setNow now => some (.ok (.time now), { t.world with now := now })
  | .fault f => some (.ok .nothing, { t.world with faults := t.world.faults ++ [f] })
  | .reply r => some (.ok .nothing, { t.world with replies := t.world.replies ++ [r] })
  | .putContact c => some (.ok .nothing, t.world.putContact c)
  | .dropContact id =>
    some (.ok .nothing, { t.world with contacts := t.world.contacts.filter (·.id ≠ id) })
  | .create u n => t.attempt .management .created (Management.create u n)
  | .importText u d => t.attempt .management .created (Management.importText u d)
  | .exportText id => t.attempt .management .text (Management.exportText id)
  | .get id => t.attempt .management .found (Management.get id)
  | .stats id => t.attempt .management .stats (Management.stats id)
  | .delete id => t.attempt .management (fun _ => .ok) (Management.delete id)
  | .list u => t.attempt .management .listed (Management.list u)
  | .update a => t.attempt .management (fun _ => .ok) (Management.update a)
  | .setStatus id s => t.attempt .management (fun _ => .ok) (Management.setStatus id s)

end Trial
end Outreach.Simulation
