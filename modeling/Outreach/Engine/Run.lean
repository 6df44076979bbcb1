import Outreach.Engine.Conditions
import Outreach.Engine.Dispatch
import Outreach.Engine.Routes

/-! Running an automation for a contact: one node after another along the routes of its graph, until
nothing follows, a node fails, or a wait suspends the run. -/
namespace Outreach

inductive RunOutcome where
  | completed
  | suspended (taskId : Int) (resumeNodeId : String)
  | noStartNode
  deriving DecidableEq, Repr

structure RunReport where
  automationId : Uuid
  /-- In order, a node that failed among them. -/
  visited : List String
  stats : ExecutionStats
  outcome : RunOutcome

structure RunFrame where
  automation : Automation
  contact : Contact
  eventContext : Json
  connection : Connection
  depth : Nat

inductive Advance where
  | next (node : Option String)
  | suspend (taskId : Int) (resumeNodeId : String)

def forwardDepthKey : String := "forwardDepth"

def forwardDepth (eventContext : Json) : Nat :=
  match eventContext.get? forwardDepthKey with
  | some (.num (.int i)) => if 0 ≤ i ∧ i < Nat.pow 2 32 then i.toNat else 0
  | _ => 0

/-- The event context as a suspended run stores it; a run that was not forwarded stores no depth. -/
def suspendedContext (eventContext : Json) (depth : Nat) : Json :=
  match eventContext with
  | .obj ms =>
    .obj (if 0 < depth then Keyed.put forwardDepthKey (.nat depth) ms else Keyed.erase ms forwardDepthKey)
  | j => j

def runContext (contact : Contact) (eventContext : Json) : Json :=
  let event := match eventContext with
    | .obj ms => Keyed.erase ms forwardDepthKey
    | _ => []
  .obj (Keyed.merge [("contact", contact.contextValue)] event)

namespace RunFrame
variable (settings : EngineSettings)

def routes (f : RunFrame) : Routes := .classify f.automation.edges

def context (f : RunFrame) : Json := runContext f.contact f.eventContext

def suspend (f : RunFrame) (next : String) (resumeAt : Instant) : Action.Attempt Advance := do
  let taskId ← Action.stored <| .request <| .insertTask
    { userId := f.contact.userId
      contactId := f.contact.id
      automationId := f.automation.id
      connectionId := f.connection.id
      resumeFromNodeId := next
      executeAt := resumeAt
      context := suspendedContext f.eventContext f.depth }
  return .suspend taskId next

def forward (f : RunFrame) (target : Automation) : Program Unit :=
  if f.depth + 1 ≤ settings.maxForwardDepth then
    .request (.spawn ⟨target, f.contact, f.eventContext, f.connection, f.depth + 1⟩)
  else pure ()

def successor (f : RunFrame) (node : String) (action : Action) : Action.Attempt (Option String) := do
  match action with
  | .conditional logic conditions =>
    let now ← Attempt.always (.request .now)
    let outcome ← Attempt.of .condition (evaluate f.contact.id logic (now.inZone settings.zone) conditions)
    return f.routes.branch? node outcome
  | .randomizer _ =>
    match f.routes.randomBranches node with
    | [] => return none
    | branches =>
      let i ← Attempt.always (.request (.pick branches.length))
      return branches[i]?
  | _ => return f.routes.next? node

def visit (f : RunFrame) (node : Node) : Action.Attempt Advance := do
  match node.data with
  | .trigger _ => return .next (f.routes.next? node.id)
  | .action action =>
    match ← action.perform settings f.contact f.context f.connection with
    | .completed => return .next (← f.successor settings node.id action)
    | .wait resumeAt =>
      match f.routes.next? node.id with
      | none => return .next none
      | some next => f.suspend next resumeAt
    | .forward target =>
      Attempt.always (f.forward settings target)
      return .next (← f.successor settings node.id action)

/-- Visits nodes from `node` on; a walk of more than `limit` nodes is taken to be endless. -/
def walk (f : RunFrame) (limit : Nat) (node : Node) (visited : List String) (stats : ExecutionStats) :
    Program (List String × ExecutionStats × RunOutcome) :=
  match limit with
  | 0 => .endless
  | limit + 1 => do
    let visited := visited ++ [node.id]
    let stats := stats.recordAttempt node.id
    match ← (f.visit settings node).run with
    | .error _ => return (visited, stats.recordError node.id, .completed)
    | .ok (.suspend taskId next) => return (visited, stats.recordSuccess node.id, .suspended taskId next)
    | .ok (.next next) =>
      let stats := stats.recordSuccess node.id
      match next.bind f.automation.node? with
      | none => return (visited, stats, .completed)
      | some n => f.walk limit n visited stats

def run (f : RunFrame) (limit : Nat) (resumeFrom : Option String) : Attempt RunError RunReport := do
  let start := match resumeFrom with
    | some id => f.automation.node? id
    | none => f.automation.triggerNode?
  match start with
  | none => return ⟨f.automation.id, [], [], .noStartNode⟩
  | some start =>
    let (visited, stats, outcome) ← Attempt.always (f.walk settings limit start [] [])
    Attempt.of (RunError.mk f.automation.id) (.request (.mergeStats f.automation.id stats))
    return ⟨f.automation.id, visited, stats, outcome⟩

end RunFrame

/-- Runs an automation; the context of a suspended run carries the depth at which it goes on. -/
def execute (settings : EngineSettings) (limit : Nat) (automation : Automation) (contact : Contact)
    (eventContext : Json) (connection : Connection) (resumeFrom : Option String) :
    Attempt RunError RunReport :=
  RunFrame.run settings ⟨automation, contact, eventContext, connection, forwardDepth eventContext⟩ limit
    resumeFrom

def ForwardedRun.execute (settings : EngineSettings) (limit : Nat) (r : ForwardedRun) : Program Unit := do
  let _ ← (RunFrame.run settings ⟨r.automation, r.contact, r.eventContext, r.connection, r.depth⟩ limit
    none).run

end Outreach
