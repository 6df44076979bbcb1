import Outreach.Database.Basic

/-! Single cells of the database: looking at the text in one, putting another text into it, and whole tables
as JSON. -/
namespace Outreach
open Stored

structure Column (α : Type) where
  name : String
  get : α → Option String
  set : String → α → α

def AutomationRow.columnsOf : List (Column AutomationRow) :=
  [⟨"id", fun r => some r.id, fun s r => { r with id := s }⟩,
    ⟨"user_id", fun r => some r.userId, fun s r => { r with userId := s }⟩,
    ⟨"name", fun r => some r.name, fun s r => { r with name := s }⟩,
    ⟨"status", fun r => some r.status, fun s r => { r with status := s }⟩,
    ⟨"nodes", fun r => some r.nodes, fun s r => { r with nodes := s }⟩,
    ⟨"edges", fun r => some r.edges, fun s r => { r with edges := s }⟩,
    ⟨"allow_reactivation", fun r => some r.allowReactivation.text, fun s r => { r with allowReactivation := .ofText s }⟩,
    ⟨"block_on_open_chat", fun r => some r.blockOnOpenChat.text, fun s r => { r with blockOnOpenChat := .ofText s }⟩,
    ⟨"execution_stats", fun r => some r.executionStats, fun s r => { r with executionStats := s }⟩,
    ⟨"created_at", fun r => some r.createdAt, fun s r => { r with createdAt := s }⟩]

def ContactRow.columnsOf : List (Column ContactRow) :=
  [⟨"user_id", fun r => some r.userId, fun s r => { r with userId := s }⟩,
    ⟨"name", fun r => some r.name, fun s r => { r with name := s }⟩,
    ⟨"phone", fun r => some r.phone, fun s r => { r with phone := s }⟩,
    ⟨"tags", fun r => some r.tags, fun s r => { r with tags := s }⟩,
    ⟨"crm_stage_id", fun r => r.crmStageId, fun s r => { r with crmStageId := some s }⟩,
    ⟨"is_24h_window_open", fun r => some r.is24hWindowOpen.text, fun s r => { r with is24hWindowOpen := .ofText s }⟩,
    ⟨"is_opted_out_of_automations", fun r => some r.isOptedOut.text, fun s r => { r with isOptedOut := .ofText s }⟩,
    ⟨"last_interaction", fun r => r.lastInteraction, fun s r => { r with lastInteraction := some s }⟩,
    ⟨"custom_fields", fun r => some r.customFields, fun s r => { r with customFields := s }⟩,
    ⟨"created_at", fun r => some r.createdAt, fun s r => { r with createdAt := s }⟩]

def ConnectionRow.columnsOf : List (Column ConnectionRow) :=
  [⟨"id", fun r => some r.id, fun s r => { r with id := s }⟩,
    ⟨"user_id", fun r => some r.userId, fun s r => { r with userId := s }⟩,
    ⟨"name", fun r => some r.name, fun s r => { r with name := s }⟩,
    ⟨"waba_id", fun r => some r.wabaId, fun s r => { r with wabaId := s }⟩,
    ⟨"phone_number_id", fun r => some r.phoneNumberId, fun s r => { r with phoneNumberId := s }⟩,
    ⟨"api_token", fun r => some r.apiToken, fun s r => { r with apiToken := s }⟩,
    ⟨"created_at", fun r => some r.createdAt, fun s r => { r with createdAt := s }⟩]

def BoardRow.columnsOf : List (Column BoardRow) :=
  [⟨"id", fun r => some r.id, fun s r => { r with id := s }⟩,
    ⟨"user_id", fun r => some r.userId, fun s r => { r with userId := s }⟩,
    ⟨"name", fun r => some r.name, fun s r => { r with name := s }⟩,
    ⟨"columns", fun r => some r.columns, fun s r => { r with columns := s }⟩,
    ⟨"created_at", fun r => some r.createdAt, fun s r => { r with createdAt := s }⟩]

def TaskRow.columnsOf : List (Column TaskRow) :=
  [⟨"user_id", fun r => some r.userId, fun s r => { r with userId := s }⟩,
    ⟨"automation_id", fun r => some r.automationId, fun s r => { r with automationId := s }⟩,
    ⟨"connection_id", fun r => some r.connectionId, fun s r => { r with connectionId := s }⟩,
    ⟨"resume_from_node_id", fun r => some r.resumeFromNodeId, fun s r => { r with resumeFromNodeId := s }⟩,
    ⟨"execute_at", fun r => some r.executeAt, fun s r => { r with executeAt := s }⟩,
    ⟨"context", fun r => some r.context, fun s r => { r with context := s }⟩,
    ⟨"status", fun r => some r.status, fun s r => { r with status := s }⟩,
    ⟨"error_message", fun r => r.errorMessage, fun s r => { r with errorMessage := some s }⟩,
    ⟨"created_at", fun r => some r.createdAt, fun s r => { r with createdAt := s }⟩]

namespace Database
variable {α : Type}

def cellIn (columns : List (Column α)) (column : String) (isWanted : α → Bool) (rows : List α) :
    Option String := do
  let c ← columns.find? (·.name == column)
  c.get (← rows.find? isWanted)

def setIn (columns : List (Column α)) (column text : String) (isWanted : α → Bool) (rows : List α) :
    List α :=
  match columns.find? (·.name == column) with
  | some c => (change isWanted (c.set text) rows).2
  | none => rows

def cell? (table column id : String) (db : Database) : Option String :=
  match table with
  | "automations" => cellIn AutomationRow.columnsOf column (·.id == id) db.automations
  | "contacts" => cellIn ContactRow.columnsOf column (Text.decimalInt ·.id == id) db.contacts
  | "connections" => cellIn ConnectionRow.columnsOf column (·.id == id) db.connections
  | "crm_boards" => cellIn BoardRow.columnsOf column (·.id == id) db.boards
  | "automation_tasks" => cellIn TaskRow.columnsOf column (Text.decimalInt ·.id == id) db.tasks
  | _ => none

def setCell (table column id text : String) (db : Database) : Database :=
  match table with
  | "automations" =>
    { db with automations := setIn AutomationRow.columnsOf column text (·.id == id) db.automations }
  | "contacts" =>
    { db with contacts := setIn ContactRow.columnsOf column text (Text.decimalInt ·.id == id) db.contacts }
  | "connections" =>
    { db with connections := setIn ConnectionRow.columnsOf column text (·.id == id) db.connections }
  | "crm_boards" => { db with boards := setIn BoardRow.columnsOf column text (·.id == id) db.boards }
  | "automation_tasks" =>
    { db with tasks := setIn TaskRow.columnsOf column text (Text.decimalInt ·.id == id) db.tasks }
  | _ => db

def shown (text : String) : Json := (Json.parse? text).getD (.str text)

/-- The tables by name, without times, documents as JSON; rows by age, then by id. -/
def listing (db : Database) : List (String × Json) :=
  [("contacts", .arr (db.contacts.map fun r => .obj [("id", .int r.id), ("user_id", .str r.userId),
      ("name", .str r.name), ("phone", .str r.phone), ("tags", shown r.tags),
      ("crm_stage_id", .optStr r.crmStageId), ("is_opted_out_of_automations", r.isOptedOut.json),
      ("custom_fields", shown r.customFields)])),
    ("automations", .arr ((byAge (·.createdAt) (·.id) db.automations).map fun r => .obj [("id", .str r.id),
      ("name", .str r.name), ("status", .str r.status), ("nodes", shown r.nodes),
      ("edges", shown r.edges), ("execution_stats", shown r.executionStats)])),
    ("automation_tasks", .arr (db.tasks.map fun r => .obj [("id", .int r.id), ("contact_id", .int r.contactId),
      ("automation_id", .str r.automationId), ("connection_id", .str r.connectionId),
      ("resume_from_node_id", .str r.resumeFromNodeId), ("context", shown r.context),
      ("status", .str r.status), ("error_message", .optStr r.errorMessage)])),
    ("connections", .arr ((byAge (·.createdAt) (·.id) db.connections).map fun r => .obj [("id", .str r.id),
      ("user_id", .str r.userId), ("name", .str r.name), ("waba_id", .str r.wabaId),
      ("phone_number_id", .str r.phoneNumberId), ("api_token", .str r.apiToken)])),
    ("crm_boards", .arr ((byAge (·.createdAt) (·.id) db.boards).map fun r => .obj [("id", .str r.id),
      ("user_id", .str r.userId), ("name", .str r.name), ("columns", shown r.columns)]))]

end Database
end Outreach
