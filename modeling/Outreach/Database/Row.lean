import Outreach.Board
import Outreach.Contact.Patch
import Outreach.Engine.Failure
import Outreach.Message
import Outreach.Task

/-! The rows of the database. Ids, times and documents are stored as text, flags as integers; each kind of
row can be read as a value of the domain, or else it is damaged. -/
namespace Outreach

namespace Stored

abbrev Read (α : Type) := Except RepositoryError α

inductive Flag where
  | integer (i : Int)
  | other (type : String)
  deriving DecidableEq, Repr

def Flag.ofBool (b : Bool) : Flag := .integer (if b then 1 else 0)

/-- A text put into a cell for integers becomes one if it can. -/
def Flag.ofText (s : String) : Flag :=
  let cs := Text.trimChars s.toList
  let isDigits (ds : List Char) : Bool := ds.all Char.isDigit
  match Text.integer? cs, Text.cutAt '.' cs with
  | some i, _ => .integer i
  | none, some (w, f) =>
    match Text.integer? w with
    | some i => if isDigits f then if f.all (· == '0') then .integer i else .other "REAL" else .other "TEXT"
    | none => .other "TEXT"
  | none, none => .other "TEXT"

def Flag.text : Flag → String
  | .integer i => Text.decimalInt i
  | .other t => t

def Flag.json : Flag → Json
  | .integer i => .int i
  | .other t => .str t

def flag (column : String) : Flag → Read Bool
  | .integer i => .ok (i ≠ 0)
  | .other type => .error (.query ("error occurred while decoding column \"" ++ column ++
      "\": mismatched types; Rust type `bool` (as SQL type `BOOLEAN`) is not compatible with SQL type `" ++
      type ++ "`"))

def uuid (s : String) : Read Uuid :=
  match Uuid.parse? s with
  | some u => .ok u
  | none => .error (.query "invalid UUID")

def instant (s : String) : Read Instant :=
  match Instant.ofText? s with
  | some t => .ok t
  | none => .error (.query "invalid datetime")

def document {α : Type} (column : String) (dec : Decoder α) (s : String) : Read α :=
  match Decode.ofText dec s with
  | .ok a => .ok a
  | .error _ => .error (.query ("invalid " ++ column ++ " JSON"))

def named {α : Type} : Except String α → Read α
  | .ok a => .ok a
  | .error e => .error (.query e)

def listText {α : Type} (encode : α → Json) (as : List α) : String := (Json.arr (as.map encode)).text

end Stored

open Stored

structure AutomationRow where
  id : String
  userId : String
  name : String
  status : String
  nodes : String
  edges : String
  allowReactivation : Flag
  blockOnOpenChat : Flag
  executionStats : String
  createdAt : String
  deriving DecidableEq, Repr

structure ContactRow where
  id : Int
  userId : String
  name : String
  phone : String
  tags : String
  crmStageId : Option String
  is24hWindowOpen : Flag
  isOptedOut : Flag
  lastInteraction : Option String
  customFields : String
  createdAt : String
  deriving DecidableEq, Repr

structure ConnectionRow where
  id : String
  userId : String
  name : String
  wabaId : String
  phoneNumberId : String
  apiToken : String
  createdAt : String
  deriving DecidableEq, Repr

structure BoardRow where
  id : String
  userId : String
  name : String
  columns : String
  createdAt : String
  deriving DecidableEq, Repr

structure TaskRow where
  id : Int
  userId : String
  contactId : Int
  automationId : String
  connectionId : String
  resumeFromNodeId : String
  executeAt : String
  context : String
  status : String
  errorMessage : Option String
  createdAt : String
  deriving DecidableEq, Repr

namespace AutomationRow

def ofAutomation (a : Automation) : AutomationRow :=
  { id := a.id.text
    userId := a.userId.text
    name := a.name
    status := a.status.text
    nodes := listText Node.encode a.nodes
    edges := listText Edge.encode a.edges
    allowReactivation := .ofBool a.allowReactivation
    blockOnOpenChat := .ofBool a.blockOnOpenChat
    executionStats := (ExecutionStats.encode a.executionStats).text
    createdAt := a.createdAt.microsText }

def stats (r : AutomationRow) : Read ExecutionStats :=
  document "execution_stats" ExecutionStats.decode r.executionStats

def read (r : AutomationRow) : Read Automation := do
  let allowReactivation ← flag "allow_reactivation" r.allowReactivation
  let blockOnOpenChat ← flag "block_on_open_chat" r.blockOnOpenChat
  let status ← named (AutomationStatus.parse r.status)
  return {
    id := ← uuid r.id
    userId := ← uuid r.userId
    name := r.name
    status := status
    nodes := ← document "nodes" (Decode.list Node.decode) r.nodes
    edges := ← document "edges" (Decode.list Edge.decode) r.edges
    createdAt := ← instant r.createdAt
    allowReactivation := allowReactivation
    blockOnOpenChat := blockOnOpenChat
    executionStats := ← r.stats }

/-- Takes over everything but owner, counters and creation time. -/
def withGraphOf (r : AutomationRow) (a : Automation) : AutomationRow :=
  let new := ofAutomation a
  { r with
    name := new.name
    status := new.status
    nodes := new.nodes
    edges := new.edges
    allowReactivation := new.allowReactivation
    blockOnOpenChat := new.blockOnOpenChat }

end AutomationRow

namespace ContactRow

def ofContact (c : Contact) : ContactRow :=
  { id := c.id
    userId := c.userId.text
    name := c.name
    phone := c.phone
    tags := (Json.strs c.tags).text
    crmStageId := c.crmStageId
    is24hWindowOpen := .ofBool c.is24hWindowOpen
    isOptedOut := .ofBool c.isOptedOut
    lastInteraction := c.lastInteraction.map Instant.microsText
    customFields := (Json.obj c.customFields).text
    createdAt := c.createdAt.microsText }

def read (r : ContactRow) : Read Contact := do
  let is24hWindowOpen ← flag "is_24h_window_open" r.is24hWindowOpen
  let isOptedOut ← flag "is_opted_out_of_automations" r.isOptedOut
  let lastInteraction ← r.lastInteraction.mapM instant
  return {
    id := r.id
    userId := ← uuid r.userId
    name := r.name
    phone := r.phone
    tags := ← document "tags" (Decode.list Decode.string) r.tags
    crmStageId := r.crmStageId
    is24hWindowOpen := is24hWindowOpen
    isOptedOut := isOptedOut
    lastInteraction := lastInteraction
    createdAt := ← instant r.createdAt
    customFields := ← document "custom_fields" (Decode.keyed Decode.json) r.customFields }

def withColumnsOf (r : ContactRow) (c : Contact) : ContactRow :=
  let new := ofContact c
  { r with
    name := new.name
    phone := new.phone
    tags := new.tags
    crmStageId := new.crmStageId
    is24hWindowOpen := new.is24hWindowOpen
    isOptedOut := new.isOptedOut
    customFields := new.customFields }

end ContactRow

namespace ConnectionRow

def ofConnection (c : Connection) : ConnectionRow :=
  ⟨c.id.text, c.userId.text, c.name, c.wabaId, c.phoneNumberId, c.apiToken, c.createdAt.microsText⟩

def read (r : ConnectionRow) : Read Connection := do
  return ⟨← uuid r.id, ← uuid r.userId, r.name, r.wabaId, r.phoneNumberId, r.apiToken, ← instant r.createdAt⟩

end ConnectionRow

namespace BoardRow

def ofBoard (b : Board) : BoardRow :=
  ⟨b.id, b.userId.text, b.name, listText Stage.encode b.stages, b.createdAt.microsText⟩

def read (r : BoardRow) : Read Board := do
  return ⟨r.id, ← uuid r.userId, r.name, ← document "columns" (Decode.list Stage.decode) r.columns,
    ← instant r.createdAt⟩

end BoardRow

namespace TaskRow

def ofNew (id : Int) (now : Instant) (t : NewTask) : TaskRow :=
  { id := id
    userId := t.userId.text
    contactId := t.contactId
    automationId := t.automationId.text
    connectionId := t.connectionId.text
    resumeFromNodeId := t.resumeFromNodeId
    executeAt := t.executeAt.microsText
    context := t.context.text
    status := TaskStatus.pending.text
    errorMessage := none
    createdAt := now.microsText }

def read (r : TaskRow) : Read ScheduledTask := do
  let status ← named (TaskStatus.parse r.status)
  return {
    id := r.id
    userId := ← uuid r.userId
    contactId := r.contactId
    automationId := ← uuid r.automationId
    connectionId := ← uuid r.connectionId
    resumeFromNodeId := r.resumeFromNodeId
    executeAt := ← instant r.executeAt
    context := ← document "context" Decode.json r.context
    status := status
    errorMessage := r.errorMessage
    createdAt := ← instant r.createdAt }

end TaskRow
end Outreach
