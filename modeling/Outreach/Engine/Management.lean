import Outreach.Engine.Program

/-! Creating, changing and exchanging automations. -/
namespace Outreach

namespace Automation

def nodeFault? (seen : List String) : List Node → Option GraphFault
  | [] => none
  | n :: r =>
    if n.id.isEmpty then some .emptyNodeId
    else if seen.contains n.id then some (.duplicateNodeId n.id)
    else nodeFault? (n.id :: seen) r

/-- The first end of an edge that is no node, sources before targets. -/
def edgeFault? (ids : List String) (edges : List Edge) : Option GraphFault :=
  edges.findSome? fun e =>
    if !ids.contains e.source then some (.unknownNode e e.source)
    else if !ids.contains e.target then some (.unknownNode e e.target)
    else none

def fault? (a : Automation) : Option GraphFault :=
  nodeFault? [] a.nodes <|> edgeFault? (a.nodes.map (·.id)) a.edges <|>
    if a.status == .active && a.triggerNode?.isNone then some .noTrigger else none

end Automation

namespace Management

abbrev Attempt := Outreach.Attempt ManagementError

def stored {α : Type} (p : Program (Except RepositoryError α)) : Management.Attempt α := .of .storage p

def checkGraph (a : Automation) : Management.Attempt Unit :=
  match a.fault? with
  | some f => throw (.graph f)
  | none => pure ()

def create (user : Uuid) (new : NewAutomation) : Management.Attempt Automation := do
  let name := Text.trim new.name
  if name.isEmpty then throw .emptyName
  let (id, createdAt) ← Attempt.always (.request .freshIdentity)
  let a : Automation :=
    { id := id
      userId := user
      name := name
      status := new.status
      nodes := new.nodes
      edges := new.edges
      createdAt := createdAt
      allowReactivation := new.allowReactivation
      blockOnOpenChat := new.blockOnOpenChat
      executionStats := [] }
  checkGraph a
  stored (.request (.createAutomation a))
  return a

def get (id : Uuid) : Management.Attempt Automation := do
  match ← stored (.request (.getAutomation id)) with
  | some a => return a
  | none => throw (.notFound id)

def list (user : Option Uuid) : Management.Attempt (List Automation) :=
  stored (.request (.listAutomations (user.elim .all .user)))

def update (a : Automation) : Management.Attempt Unit := do
  checkGraph a
  .of (fun
    | .notFound => .notFound a.id
    | e => .storage e) (.request (.updateAutomation a))

def setStatus (id : Uuid) (status : AutomationStatus) : Management.Attempt Unit := do
  if status == .active then
    let a ← get id
    if a.triggerNode?.isNone then throw (.graph .noTrigger)
  unless ← stored (.request (.setStatus id status)) do throw (.notFound id)

def delete (id : Uuid) : Management.Attempt Unit := do
  unless ← stored (.request (.deleteAutomation id)) do throw (.notFound id)

/-- Creates an automation from a document; identity, owner and counters in it are passed over. -/
def importText (user : Uuid) (document : String) : Management.Attempt Automation :=
  match Decode.ofText NewAutomation.decode document with
  | .ok new => create user new
  | .error e => throw (.parse e)

def exportText (id : Uuid) : Management.Attempt String := return (← get id).encode.pretty

def stats (id : Uuid) : Management.Attempt ExecutionStats := return (← get id).executionStats

end Management
end Outreach
