import Outreach.Simulation.Step

/-! What a step of a trial did, written down as JSON. -/
namespace Outreach

def RunOutcome.encode : RunOutcome → Json
  | .completed => .str "completed"
  | .noStartNode => .str "noStartNode"
  | .suspended t n => .obj [("task", .int t), ("resumeAt", .str n)]

def RunReport.encode (r : RunReport) : Json :=
  .obj [("automation", .str r.automationId.text), ("visited", .strs r.visited),
    ("stats", ExecutionStats.encode r.stats), ("outcome", r.outcome.encode)]

def DispatchReport.encode (r : DispatchReport) : Json :=
  .obj [("matched", .strs (r.matched.map (·.text))), ("runs", .arr (r.runs.map RunReport.encode)),
    ("failures", .arr (r.failures.map fun f =>
      .obj [("automation", .str f.1.text), ("message", .str f.2)])),
    ("skipped", .optStr (r.skipped.map SkipReason.text))]

def ActionOutcome.encode : ActionOutcome → Json
  | .completed => .str "completed"
  | .wait t => .obj [("wait", .str t.text)]
  | .forward a => .obj [("forward", .str a.id.text)]

def IntakeOutcome.encode : IntakeOutcome → Json
  | .sampleCaptured id => .obj [("sampleCaptured", .str id.text)]
  | .dispatched c created rs =>
    .obj [("contact", .int c), ("created", .bool created), ("reports", .arr (rs.map DispatchReport.encode))]

def InboxSummary.encode (s : InboxSummary) : Json :=
  .obj [("messages", .nat s.messages), ("dispatched", .nat s.dispatched),
    ("unknownSenders", .nat s.unknownSenders), ("failed", .nat s.failed)]

namespace Simulation

def Outcome.encode : Outcome → Json
  | .dispatched r => r.encode
  | .ran r => r.encode
  | .acted o => o.encode
  | .held b => .bool b
  | .swept s => s.encode
  | .takenIn o => o.encode
  | .noticed s => s.encode
  | .time t => .str t.text
  | .created a => a.encode
  | .found a => a.encode
  | .listed as => .arr (as.map fun a =>
    .obj [("id", .str a.id.text), ("name", .str a.name), ("status", .str a.status.text)])
  | .text s => .str s
  | .stats s => ExecutionStats.encode s
  | .ok => .str "ok"
  | .nothing => .null

def Sent.encode : Sent → Json
  | .text phone body c =>
    .obj [("kind", .str "text"), ("to", .str phone), ("body", .str body), ("connection", .str c.text)]
  | .template phone m c =>
    .obj [("kind", .str "template"), ("to", .str phone), ("name", .str m.templateName),
      ("language", .str m.languageCode), ("components", .arr m.components), ("connection", .str c.text)]
  | .flow phone m c =>
    .obj [("kind", .str "flow"), ("to", .str phone), ("flowId", .str m.flowId),
      ("tokenIsUuid", .bool (Uuid.parse? m.flowToken).isSome), ("connection", .str c.text)]

def automationRow (a : Automation) : Json :=
  .obj [("name", .str a.name), ("status", .str a.status.text),
    ("stats", ExecutionStats.encode a.executionStats), ("nodes", .nat a.nodes.length),
    ("edges", .nat a.edges.length), ("webhooks", .arr (a.triggers.filterMap fun t => match t with
      | .webhook .. => some t.encode
      | _ => none))]

def changedRows (old new : List (String × Json)) : Json :=
  let changed := new.filter fun e => match old.find? (·.1 == e.1) with
    | some o => o.2.text != e.2.text
    | none => true
  let gone := (old.filter fun e => new.all (·.1 != e.1)).map fun e => (e.1, Json.null)
  .obj (changed ++ gone)

namespace World

def contactRows (w : World) : List (String × Json) :=
  w.contacts.map fun c => (Text.decimalInt c.id, c.encode)

def taskRows (w : World) : List (String × Json) := w.tasks.map fun t => (Text.decimalInt t.id, t.encode)

def automationRows (w : World) : List (String × Json) :=
  w.automations.map fun a => (a.id.text, automationRow a)

def unnoted (w : World) : World := { w with calls := [], sent := [], http := [] }

def effects (old new : World) : List (String × Json) :=
  [("calls", .strs new.calls), ("sent", .arr (new.sent.map Sent.encode)),
    ("http", .arr (new.http.map HttpCall.encode)),
    ("contacts", changedRows old.contactRows new.contactRows),
    ("tasks", changedRows old.taskRows new.taskRows),
    ("automations", changedRows old.automationRows new.automationRows)].filter fun m =>
      match m.2 with
      | .arr [] | .obj [] => false
      | _ => true

end World
end Simulation
end Outreach
