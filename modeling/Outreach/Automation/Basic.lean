import Outreach.Automation.Node
import Outreach.Automation.Stats
import Outreach.Time.Instant
import Outreach.Uuid

/-! Automations: graphs of nodes that a user has stored, with their counters. -/
namespace Outreach
open Decode

inductive AutomationStatus where
  | draft
  | active
  | paused
  deriving DecidableEq, Repr, Inhabited

namespace AutomationStatus

def text : AutomationStatus → String
  | .draft => "DRAFT"
  | .active => "ACTIVE"
  | .paused => "PAUSED"

def names : List (String × AutomationStatus) := [.draft, .active, .paused].map fun s => (s.text, s)

def parse (s : String) : Except String AutomationStatus :=
  let t := Text.asciiUpper s
  match names.find? (·.1 == t) with
  | some n => .ok n.2
  | none => .error ("invalid automation status: '" ++ t ++ "'")

end AutomationStatus

/-- A link between two nodes. The handle is `true` or `false` behind a conditional and starts with
`branch-` behind a randomizer. -/
structure Edge where
  id : Option String
  source : String
  target : String
  sourceHandle : Option String
  deriving DecidableEq, Repr

namespace Edge

def decode : Decoder Edge :=
  (Edge.mk <$> Fields.withDefault "id" none (option string) <*> Fields.required "source" string <*>
    Fields.required "target" string <*> Fields.withDefault "sourceHandle" none (option string)).object

def given (name : String) : Option String → List (String × Json)
  | none => []
  | some s => [(name, .str s)]

def encode (e : Edge) : Json :=
  .obj (given "id" e.id ++ [("source", .str e.source), ("target", .str e.target)] ++
    given "sourceHandle" e.sourceHandle)

end Edge

def Decode.uuid : Decoder Uuid := parsed Uuid.parse?

def Decode.instant : Decoder Instant := parsed Instant.ofLooseText?

structure Automation where
  id : Uuid
  userId : Uuid
  name : String
  status : AutomationStatus
  nodes : List Node
  edges : List Edge
  createdAt : Instant
  allowReactivation : Bool
  /-- Leaves the automation out while the contact's conversation window is open. -/
  blockOnOpenChat : Bool
  executionStats : ExecutionStats

structure NewAutomation where
  name : String
  status : AutomationStatus
  nodes : List Node
  edges : List Edge
  allowReactivation : Bool
  blockOnOpenChat : Bool

namespace Automation

def triggerNode? (a : Automation) : Option Node := a.nodes.find? (·.kind = .trigger)

def node? (a : Automation) (id : String) : Option Node := a.nodes.find? (·.id = id)

def triggers (a : Automation) : List Trigger := a.nodes.filterMap Node.trigger?

def decode : Decoder Automation :=
  (Automation.mk <$> Fields.required "id" uuid <*> Fields.required "userId" uuid <*>
    Fields.required "name" string <*> Fields.required "status" (choice AutomationStatus.names) <*>
    Fields.withDefault "nodes" [] (list Node.decode) <*>
    Fields.withDefault "edges" [] (list Edge.decode) <*> Fields.required "createdAt" instant <*>
    Fields.withDefault "allowReactivation" false bool <*>
    Fields.withDefault "blockOnOpenChat" false bool <*>
    Fields.withDefault "executionStats" [] ExecutionStats.decode).object

def encode (a : Automation) : Json :=
  .obj [("id", .str a.id.text), ("userId", .str a.userId.text), ("name", .str a.name),
    ("status", .str a.status.text), ("nodes", .arr (a.nodes.map Node.encode)),
    ("edges", .arr (a.edges.map Edge.encode)), ("createdAt", .str a.createdAt.text),
    ("allowReactivation", .bool a.allowReactivation), ("blockOnOpenChat", .bool a.blockOnOpenChat),
    ("executionStats", ExecutionStats.encode a.executionStats)]

end Automation

namespace NewAutomation

def decode : Decoder NewAutomation :=
  (NewAutomation.mk <$> Fields.required "name" string <*>
    Fields.withDefault "status" .draft (choice AutomationStatus.names) <*>
    Fields.withDefault "nodes" [] (list Node.decode) <*>
    Fields.withDefault "edges" [] (list Edge.decode) <*>
    Fields.withDefault "allowReactivation" false bool <*>
    Fields.withDefault "blockOnOpenChat" false bool).object

def encode (a : NewAutomation) : Json :=
  .obj [("name", .str a.name), ("status", .str a.status.text), ("nodes", .arr (a.nodes.map Node.encode)),
    ("edges", .arr (a.edges.map Edge.encode)), ("allowReactivation", .bool a.allowReactivation),
    ("blockOnOpenChat", .bool a.blockOnOpenChat)]

end NewAutomation
end Outreach
