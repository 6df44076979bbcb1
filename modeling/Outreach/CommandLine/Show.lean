import Outreach.Engine.Firing
import Outreach.Engine.Sweep
import Outreach.Text.Grid

/-! What orders print. -/
namespace Outreach

def Connection.encode (c : Connection) : Json :=
  .obj [("id", .str c.id.text), ("userId", .str c.userId.text), ("name", .str c.name),
    ("wabaId", .str c.wabaId), ("phoneNumberId", .str c.phoneNumberId), ("createdAt", .str c.createdAt.text)]

namespace CommandLine

structure Printed where
  json : Json
  text : String

def unlines (lines : List String) : String := String.join (lines.map (· ++ "\n"))

def Printed.output (p : Printed) (json : Bool) : String := if json then p.json.pretty ++ "\n" else p.text

def triggerTypes (a : Automation) : List String := a.triggers.map (·.subType)

def automationTable (as : List Automation) : Text.Grid where
  header := ["ID", "Name", "Status", "Triggers", "Nodes"]
  rows := as.map fun a => [a.id.text, a.name, a.status.text, ", ".intercalate (triggerTypes a),
    Text.decimal a.nodes.length]

def printAutomations (as : List Automation) : Printed where
  json := .arr (as.map fun a =>
    .obj [("id", .str a.id.text), ("userId", .str a.userId.text), ("name", .str a.name),
      ("status", .str a.status.text), ("nodes", .nat a.nodes.length), ("triggers", .strs (triggerTypes a))])
  text :=
    if as.isEmpty then
      unlines ["", "  No automations found.",
        "  Import one with: zapflow automation import <file> --user <uuid>", ""]
    else (automationTable as).text

def edgeText (e : Edge) : String :=
  match e.sourceHandle with
  | some h => e.target ++ " [" ++ h ++ "]"
  | none => e.target

def nodeTable (a : Automation) : Text.Grid where
  header := ["Node", "Kind", "Type", "Next"]
  rows := a.nodes.map fun n => [n.id, n.kind.text, n.subType,
    ", ".intercalate ((a.edges.filter (·.source == n.id)).map edgeText)]

def yesNo (b : Bool) : String := if b then "true" else "false"

def printAutomation (a : Automation) : Printed where
  json := a.encode
  text := unlines ["", "  " ++ a.name ++ " (" ++ a.status.text ++ ")", "  ID: " ++ a.id.text,
    "  Owner: " ++ a.userId.text,
    "  Reactivation: " ++ yesNo a.allowReactivation ++ "  Block on open chat: " ++ yesNo a.blockOnOpenChat,
    ""] ++ (nodeTable a).text ++ "\n"

def printImported (a : Automation) : Printed where
  json := .obj [("id", .str a.id.text), ("name", .str a.name), ("status", .str a.status.text),
    ("nodes", .nat a.nodes.length), ("edges", .nat a.edges.length)]
  text := unlines ["", "  * Imported automation '" ++ a.name ++ "'", "  ID: " ++ a.id.text,
    "  Status: " ++ a.status.text, "  Nodes: " ++ Text.decimal a.nodes.length, ""]

def printStatus (id : Uuid) (status : AutomationStatus) : Printed where
  json := .obj [("id", .str id.text), ("status", .str status.text)]
  text := unlines ["  * Automation " ++ id.text ++ " is now " ++ status.text]

def printDeleted (id : Uuid) : Printed where
  json := .obj [("id", .str id.text), ("deleted", .bool true)]
  text := unlines ["  * Deleted automation " ++ id.text]

def statsTable (a : Automation) : Text.Grid where
  header := ["Node", "Type", "Total", "Success", "Error"]
  rows := a.executionStats.map fun (id, s) => [id, ((a.node? id).map (·.subType)).getD "(removed)",
    Text.decimal s.total, Text.decimal s.success, Text.decimal s.error]

def printStats (a : Automation) : Printed where
  json := ExecutionStats.encode a.executionStats
  text :=
    if a.executionStats.isEmpty then unlines ["", "  '" ++ a.name ++ "' has not run yet.", ""]
    else unlines ["", "  " ++ a.name] ++ (statsTable a).text

def printAdded (c : Connection) : Printed where
  json := c.encode
  text := unlines ["", "  * Added connection '" ++ c.name ++ "'", "  ID: " ++ c.id.text,
    "  Phone number id: " ++ c.phoneNumberId, ""]

def connectionTable (cs : List Connection) : Text.Grid where
  header := ["ID", "User", "Name", "WABA", "Phone number id"]
  rows := cs.map fun c => [c.id.text, c.userId.text, c.name, c.wabaId, c.phoneNumberId]

def printConnections (cs : List Connection) : Printed where
  json := .arr (cs.map Connection.encode)
  text := if cs.isEmpty then unlines ["", "  No connections found.", ""] else (connectionTable cs).text

def printBoards (bs : List Board) : Printed where
  json := .arr (bs.map Board.encode)
  text := unlines ([""] ++ bs.map (fun b =>
    "  * Imported board '" ++ b.name ++ "' (" ++ Text.decimal b.stages.length ++ " stages)") ++ [""])

def outcomeText : RunOutcome → String
  | .completed => "completed"
  | .suspended task node =>
    "suspended (task " ++ Text.decimalInt task ++ ", resumes at " ++ node ++ ")"
  | .noStartNode => "no start node"

def runTable (rs : List RunReport) : Text.Grid where
  header := ["Automation", "Visited", "Outcome"]
  rows := rs.map fun r => [r.automationId.text, " -> ".intercalate r.visited, outcomeText r.outcome]

def reportText (trigger : String) (r : DispatchReport) : String :=
  match r.skipped with
  | some reason => unlines ["", "  ! " ++ trigger ++ " skipped: " ++ reason.text, ""]
  | none =>
    unlines ["", "  * " ++ trigger ++ " matched " ++ Text.decimal r.matched.length ++ " automation(s)"] ++
      (if r.runs.isEmpty then "" else (runTable r.runs).text) ++
      unlines (r.failures.map (fun f => "  x " ++ f.1.text ++ ": " ++ f.2) ++ [""])

def printReport (trigger : String) (r : DispatchReport) : Printed where
  json := .obj [("matched", .strs (r.matched.map (·.text))), ("skipped", .optStr (r.skipped.map SkipReason.text)),
    ("runs", .arr (r.runs.map fun run => .obj [("automationId", .str run.automationId.text),
      ("visited", .strs run.visited), ("outcome", .str (outcomeText run.outcome))])),
    ("failures", .arr (r.failures.map fun f =>
      .obj [("automationId", .str f.1.text), ("error", .str f.2)]))]
  text := reportText trigger r

def printSweep (s : SweepSummary) : Printed where
  json := s.encode
  text := unlines ["", "  * Sweep finished: " ++ Text.decimal s.processed ++ " processed, " ++
    Text.decimal s.failed ++ " failed, " ++ Text.decimal s.skipped ++ " skipped", ""]

end CommandLine
end Outreach
