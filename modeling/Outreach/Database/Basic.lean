import Outreach.Database.Row
import Outreach.Engine.Program

/-! The database: five tables and what can be asked of them. Each operation happens as a whole or, when it
fails, not at all. -/
namespace Outreach
open Stored

structure Database where
  automations : List AutomationRow
  /-- In ascending order of the ids, like tasks. -/
  contacts : List ContactRow
  connections : List ConnectionRow
  boards : List BoardRow
  tasks : List TaskRow
  /-- The highest ids ever given; they are not given again. -/
  lastContactId : Nat
  lastTaskId : Nat

def RepositoryError.foreignKey : RepositoryError :=
  .query "error returned from database: (code: 787) FOREIGN KEY constraint failed"

namespace Database

def empty : Database := ⟨[], [], [], [], [], 0, 0⟩

/-- Oldest first, then by id; times of this form compare as text. -/
def byAge {α : Type} (createdAt id : α → String) (rows : List α) : List α :=
  rows.mergeSort fun a b => createdAt a < createdAt b || (createdAt a == createdAt b && id a ≤ id b)

def change {α : Type} (p : α → Bool) (f : α → α) (rows : List α) : Bool × List α :=
  (rows.any p, rows.map fun r => if p r then f r else r)

section Automations

def createAutomation (a : Automation) (db : Database) : Read Database :=
  if db.automations.any (·.id == a.id.text) then
    .error (.conflict ("automation " ++ a.id.text ++ " already exists"))
  else .ok { db with automations := db.automations ++ [.ofAutomation a] }

def automation? (id : Uuid) (db : Database) : Read (Option Automation) :=
  (db.automations.find? (·.id == id.text)).mapM AutomationRow.read

def listAutomations (audience : Audience) (db : Database) : Read (List Automation) :=
  let rows := match audience with
    | .user u => db.automations.filter (·.userId == u.text)
    | .all => db.automations
  (byAge (·.createdAt) (·.id) rows).mapM AutomationRow.read

def updateAutomation (a : Automation) (db : Database) : Read Database :=
  match change (·.id == a.id.text) (·.withGraphOf a) db.automations with
  | (true, rows) => .ok { db with automations := rows }
  | (false, _) => .error .notFound

def setStatus (id : Uuid) (status : AutomationStatus) (db : Database) : Bool × Database :=
  let (found, rows) := change (·.id == id.text)
    (fun r => { r with status := status.text }) db.automations
  (found, { db with automations := rows })

def mergeStats (id : Uuid) (delta : ExecutionStats) (db : Database) : Read Database := do
  match db.automations.find? (·.id == id.text) with
  | none => throw .notFound
  | some r =>
    let merged := (ExecutionStats.encode ((← r.stats).merge delta)).text
    let (_, rows) := change (·.id == id.text) (fun r => { r with executionStats := merged }) db.automations
    return { db with automations := rows }

def deleteAutomation (id : Uuid) (db : Database) : Bool × Database :=
  (db.automations.any (·.id == id.text),
    { db with
      automations := db.automations.filter (·.id != id.text)
      tasks := db.tasks.filter (·.automationId != id.text) })

end Automations

section Contacts

def contact? (id : Int) (db : Database) : Read (Option Contact) :=
  (db.contacts.find? (·.id == id)).mapM ContactRow.read

def findContact (user : Uuid) (phone : String) (db : Database) : Read (Option Contact) :=
  (db.contacts.find? fun r => r.userId == user.text && r.phone == phone).mapM ContactRow.read

def findContactAnywhere (phone : String) (db : Database) : Read (Option Contact) :=
  (db.contacts.find? (·.phone == phone)).mapM ContactRow.read

def phoneConflict (phone : String) : RepositoryError :=
  .conflict ("contact with phone '" ++ phone ++ "' already exists")

def phoneTaken (id : Int) (user phone : String) (db : Database) : Bool :=
  db.contacts.any fun r => r.id != id && r.userId == user && r.phone == phone

def distinct (tags : List String) : List String :=
  tags.foldl (fun seen t => if seen.contains t then seen else seen ++ [t]) []

/-- Stores a contact under a fresh id; custom fields that are named like columns are dropped. -/
def createContact (now : Instant) (c : NewContact) (db : Database) : Read (Contact × Database) :=
  let id := db.lastContactId + 1
  if db.phoneTaken id c.userId.text c.phone then .error (phoneConflict c.phone)
  else
    let contact : Contact :=
      { id := id
        userId := c.userId
        name := c.name
        phone := c.phone
        tags := distinct c.tags
        crmStageId := c.crmStageId
        is24hWindowOpen := false
        isOptedOut := false
        lastInteraction := none
        createdAt := ⟨now.seconds, now.nanos / 1000 * 1000⟩
        customFields := Contact.stripStandard c.customFields }
    .ok (contact, { db with contacts := db.contacts ++ [.ofContact contact], lastContactId := id })

/-- Applies a patch to the stored contact. A patch without parts only asks whether the contact can be read. -/
def updateContact (id : Int) (p : ContactPatch) (db : Database) : Read Database := do
  match db.contacts.find? (·.id == id) with
  | none => throw .notFound
  | some r =>
    let old ← r.read
    if p.isEmpty then return db
    let new := { p with tags := p.tags.map distinct }.apply old
    if db.phoneTaken id r.userId new.phone then throw (phoneConflict new.phone)
    return { db with contacts := (change (·.id == id) (·.withColumnsOf new) db.contacts).2 }

end Contacts

section Tasks

def insertTask (now : Instant) (t : NewTask) (db : Database) : Read (Int × Database) :=
  if db.contacts.any (·.id == t.contactId) && db.automations.any (·.id == t.automationId.text) then
    let id := db.lastTaskId + 1
    .ok (id, { db with tasks := db.tasks ++ [.ofNew id now t], lastTaskId := id })
  else .error .foreignKey

def task? (id : Int) (db : Database) : Read (Option ScheduledTask) :=
  (db.tasks.find? (·.id == id)).mapM TaskRow.read

def isPending (r : TaskRow) : Bool := r.status == TaskStatus.pending.text

def dueRows (now : Instant) (db : Database) : List TaskRow :=
  (db.tasks.filter fun r => isPending r && r.executeAt ≤ now.microsText).mergeSort fun a b =>
    a.executeAt < b.executeAt || (a.executeAt == b.executeAt && a.id ≤ b.id)

def dueTasks (now : Instant) (db : Database) : Read (List ScheduledTask) := (db.dueRows now).mapM TaskRow.read

def claimTask (id : Int) (db : Database) : Bool × Database :=
  let (found, rows) := change (fun r => r.id == id && isPending r)
    (fun r => { r with status := TaskStatus.processing.text }) db.tasks
  (found, { db with tasks := rows })

def updateTask (id : Int) (status : TaskStatus) (error : Option String) (db : Database) : Read Database :=
  match change (·.id == id) (fun r => { r with status := status.text, errorMessage := error }) db.tasks with
  | (true, rows) => .ok { db with tasks := rows }
  | (false, _) => .error .notFound

end Tasks

section Boards

def listBoards (user : Uuid) (db : Database) : Read (List Board) :=
  (byAge (·.createdAt) (·.id) (db.boards.filter (·.userId == user.text))).mapM BoardRow.read

def allStages (user : Uuid) (db : Database) : Read (List Stage) :=
  (db.listBoards user).map fun bs => bs.flatMap (·.stages)

/-- Puts a board in place of the one of its id, which keeps its age. -/
def saveBoard (b : Board) (db : Database) : Database :=
  let new := BoardRow.ofBoard b
  match change (·.id == b.id) (fun r => { new with createdAt := r.createdAt }) db.boards with
  | (true, rows) => { db with boards := rows }
  | (false, _) => { db with boards := db.boards ++ [new] }

end Boards

section Connections

def connection? (id : Uuid) (db : Database) : Read (Option Connection) :=
  (db.connections.find? (·.id == id.text)).mapM ConnectionRow.read

def connectionRows (user : Option Uuid) (db : Database) : List ConnectionRow :=
  byAge (·.createdAt) (·.id) (db.connections.filter fun r => user.all (r.userId == ·.text))

def listConnections (user : Option Uuid) (db : Database) : Read (List Connection) :=
  (db.connectionRows user).mapM ConnectionRow.read

def firstConnection (user : Uuid) (db : Database) : Read (Option Connection) :=
  (db.connectionRows (some user)).head?.mapM ConnectionRow.read

def createConnection (id : Uuid) (now : Instant) (c : NewConnection) (db : Database) :
    Connection × Database :=
  let made : Connection := ⟨id, c.userId, c.name, c.wabaId, c.phoneNumberId, c.apiToken,
    ⟨now.seconds, now.nanos / 1000 * 1000⟩⟩
  (made, { db with connections := db.connections ++ [.ofConnection made] })

end Connections
end Database
end Outreach
