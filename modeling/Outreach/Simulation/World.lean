import Outreach.Engine.Program
import Outreach.Engine.Settle

/-! A world made of lists, in which automations can be tried out: its clock stands still until it is
moved, its servers answer what they were told to, and any call can be made to fail. Everything that is
asked of it is noted down. -/
namespace Outreach.Simulation

/-- A kind of failure for the calls of one name: lets `skip` of them pass and strikes the next `times`. -/
structure Fault where
  call : String
  kind : String
  message : String
  code : Option Int
  delayMs : Nat
  skip : Nat
  times : Nat

inductive Sent where
  | text (phone body : String) (connection : Uuid)
  | template (phone : String) (message : TemplateMessage) (connection : Uuid)
  | flow (phone : String) (message : FlowMessage) (connection : Uuid)

structure World where
  now : Instant
  picks : List Nat
  picked : Nat
  contacts : List Contact
  automations : List Automation
  tasks : List ScheduledTask
  boards : List Board
  connections : List Connection
  templates : List MessageTemplate
  lastId : Nat
  identities : Nat
  faults : List Fault
  replies : List HttpReply
  forwarded : List ForwardedRun
  calls : List String
  sent : List Sent
  http : List HttpCall

namespace World

def empty (now : Instant) (picks : List Nat) : World :=
  { now := now
    picks := picks
    picked := 0
    contacts := []
    automations := []
    tasks := []
    boards := []
    connections := []
    templates := []
    lastId := 1000
    identities := 0
    faults := []
    replies := []
    forwarded := []
    calls := []
    sent := []
    http := [] }

def insertContact (c : Contact) : List Contact → List Contact
  | [] => [c]
  | d :: r => if c.id = d.id then c :: r else if c.id < d.id then c :: d :: r else d :: insertContact c r

def putContact (w : World) (c : Contact) : World := { w with contacts := insertContact c w.contacts }

def contact? (w : World) (id : Int) : Option Contact := w.contacts.find? (·.id = id)

def insertTaskRow (t : ScheduledTask) : List ScheduledTask → List ScheduledTask
  | [] => [t]
  | u :: r => if t.id = u.id then t :: r else if t.id < u.id then t :: u :: r else u :: insertTaskRow t r

def putTask (w : World) (t : ScheduledTask) : World := { w with tasks := insertTaskRow t w.tasks }

def automation? (w : World) (id : Uuid) : Option Automation := w.automations.find? (·.id = id)

def precedes (a b : Automation) : Bool :=
  if a.createdAt = b.createdAt then a.id.text < b.id.text else a.createdAt.le b.createdAt

def insertAutomation (a : Automation) : List Automation → List Automation
  | [] => [a]
  | b :: r => if precedes a b then a :: b :: r else b :: insertAutomation a r

def putAutomation (w : World) (a : Automation) : World :=
  { w with automations := insertAutomation a (w.automations.filter (·.id ≠ a.id)) }

def strike (call : String) : List Fault → Option Fault × List Fault
  | [] => (none, [])
  | f :: r =>
    if f.call != call || (f.skip == 0 && f.times == 0) then
      let (hit, r) := strike call r
      (hit, f :: r)
    else if 0 < f.skip then (none, { f with skip := f.skip - 1 } :: r)
    else (some f, { f with times := f.times - 1 } :: r)

def note (call : String) (w : World) : Option Fault × World :=
  let (hit, faults) := strike call w.faults
  (hit, { w with faults := faults, calls := w.calls ++ [call] })

def Fault.repository (f : Fault) : RepositoryError :=
  match f.kind with
  | "Connection" => .connection
  | "NotFound" => .notFound
  | "Conflict" => .conflict f.message
  | _ => .query f.message

def storing {α : Type} (call : String) (absent : Except RepositoryError α)
    (work : World → Except RepositoryError α × World) (w : World) : Except RepositoryError α × World :=
  match note call w with
  | (none, w) => work w
  | (some f, w) => (if f.kind = "Absent" then absent else .error (Fault.repository f), w)

def reading {α : Type} (call : String) (absent : α) (read : World → α) (w : World) :
    Except RepositoryError α × World :=
  storing call (.ok absent) (fun w => (.ok (read w), w)) w

/-- An outgoing call: a delayed one is given up when the delay is longer than the time allowed. -/
def calling {α ε : Type} (call : String) (limit : Nat) (failure : Fault → ε)
    (work : World → Except (Outcall ε) α × World) (w : World) : Except (Outcall ε) α × World :=
  match note call w with
  | (none, w) => work w
  | (some f, w) =>
    if f.kind = "Delay" then if limit < f.delayMs then (.error .givenUp, w) else work w
    else (.error (.failed (failure f)), w)

def Fault.gateway (f : Fault) : GatewayError :=
  match f.kind with
  | "Timeout" => .timeout
  | "Transport" => .transport f.message
  | "InvalidResponse" => .invalidResponse f.message
  | _ => .api f.message f.code

def Fault.http (f : Fault) : HttpError :=
  match f.kind with
  | "Timeout" => .timeout
  | "InvalidRequest" => .invalidRequest f.message
  | _ => .transport f.message

def sending (call : String) (limit : Nat) (m : Sent) (w : World) :
    Except (Outcall GatewayError) Unit × World :=
  calling call limit Fault.gateway (fun w => (.ok (), { w with sent := w.sent ++ [m] })) w

/-- The queued replies in order, the last one again and again. -/
def reply (w : World) : HttpReply × World :=
  match w.replies with
  | [] => (⟨200, "\x7b\x7d"⟩, w)
  | [r] => (r, w)
  | r :: rest => (r, { w with replies := rest })

def isDue (now : Instant) (t : ScheduledTask) : Bool := t.status == .pending && t.executeAt.le now

def due (w : World) (now : Instant) : List ScheduledTask :=
  (w.tasks.filter (isDue now)).mergeSort fun a b => a.executeAt.le b.executeAt

def boardsOf (w : World) (user : Uuid) : List Board := w.boards.filter (·.userId = user)

def nextId (w : World) : Int × World := (w.lastId + 1, { w with lastId := w.lastId + 1 })

def createContact (c : NewContact) (w : World) : Except RepositoryError Contact × World :=
  let (id, w) := w.nextId
  let contact : Contact :=
    { id := id
      userId := c.userId
      name := c.name
      phone := c.phone
      tags := c.tags
      crmStageId := c.crmStageId
      is24hWindowOpen := false
      isOptedOut := false
      lastInteraction := none
      createdAt := w.now
      customFields := c.customFields }
  (.ok contact, w.putContact contact)

def insertTask (t : NewTask) (w : World) : Except RepositoryError Int × World :=
  let (id, w) := w.nextId
  (.ok id, w.putTask
    { id := id
      userId := t.userId
      contactId := t.contactId
      automationId := t.automationId
      connectionId := t.connectionId
      resumeFromNodeId := t.resumeFromNodeId
      executeAt := t.executeAt
      context := t.context
      status := .pending
      errorMessage := none
      createdAt := w.now })

def task? (w : World) (id : Int) : Option ScheduledTask := w.tasks.find? (·.id = id)

def claimTask (id : Int) (w : World) : Except RepositoryError Bool × World :=
  match w.task? id with
  | some t =>
    if t.status = .pending then (.ok true, w.putTask { t with status := .processing }) else (.ok false, w)
  | none => (.ok false, w)

def changing {α : Type} (row : Option α) (put : World → α → World) (f : α → α) (w : World) :
    Except RepositoryError Unit × World :=
  match row with
  | none => (.error .notFound, w)
  | some a => (.ok (), put w (f a))

def creationTime (n : Nat) : Instant := ⟨1893456000 + n, 123456789⟩

def answer : Program.Handler World
  | .createAutomation a, w =>
    storing "automations.create" (.ok ()) (fun w => (.ok (), w.putAutomation a)) w
  | .getAutomation id, w => reading "automations.get" none (·.automation? id) w
  | .listAutomations audience, w =>
    reading "automations.list" [] (fun w =>
      match audience with
      | .all => w.automations
      | .user u => w.automations.filter (·.userId = u)) w
  | .updateAutomation a, w =>
    storing "automations.update" (.error .notFound) (fun w =>
      changing (w.automation? a.id) putAutomation
        (fun old => { a with executionStats := old.executionStats }) w) w
  | .setStatus id status, w =>
    storing "automations.set_status" (.ok false) (fun w =>
      match w.automation? id with
      | none => (.ok false, w)
      | some a => (.ok true, w.putAutomation { a with status := status })) w
  | .mergeStats id delta, w =>
    storing "automations.merge_execution_stats" (.error .notFound) (fun w =>
      changing (w.automation? id) putAutomation
        (fun a => { a with executionStats := a.executionStats.merge delta }) w) w
  | .deleteAutomation id, w =>
    storing "automations.delete" (.ok false) (fun w =>
      (.ok (w.automation? id).isSome, { w with automations := w.automations.filter (·.id ≠ id) })) w
  | .getContact id, w => reading "contacts.get" none (·.contact? id) w
  | .findContact user phone, w =>
    reading "contacts.find_by_phone" none
      (fun w => w.contacts.find? fun c => c.userId = user && c.phone == phone) w
  | .findContactAnywhere phone, w =>
    reading "contacts.find_by_phone_any_user" none (fun w => w.contacts.find? (·.phone == phone)) w
  | .createContact c, w => storing "contacts.create" (.error .notFound) (createContact c) w
  | .updateContact id p, w =>
    storing "contacts.update" (.error .notFound) (fun w => changing (w.contact? id) putContact p.apply w) w
  | .insertTask t, w => storing "tasks.insert" (.error .notFound) (insertTask t) w
  | .dueTasks now, w => reading "tasks.list_due_pending" [] (·.due now) w
  | .claimTask id, w => storing "tasks.claim" (.ok false) (claimTask id) w
  | .updateTask id status error, w =>
    storing "tasks.update_status" (.error .notFound) (fun w =>
      changing (w.task? id) putTask (fun t => { t with status := status, errorMessage := error }) w) w
  | .listBoards user, w => reading "stages.list_boards" [] (·.boardsOf user) w
  | .allStages user, w => reading "stages.all_stages" [] (fun w => (w.boardsOf user).flatMap (·.stages)) w
  | .saveBoard b, w =>
    storing "stages.save_board" (.ok ())
      (fun w => (.ok (), { w with boards := w.boards.filter (·.id ≠ b.id) ++ [b] })) w
  | .getConnection id, w =>
    reading "connections.get" none (fun w => w.connections.find? (·.id = id)) w
  | .firstConnection user, w =>
    reading "connections.first_for_user" none (fun w => w.connections.find? (·.userId = user)) w
  | .listConnections user, w =>
    reading "connections.list" [] (fun w => w.connections.filter fun c => user.all (c.userId = ·)) w
  | .createConnection c, w =>
    storing "connections.create" (.error .notFound) (fun w =>
      let n := w.identities + 1
      let made : Connection :=
        ⟨.numbered n, c.userId, c.name, c.wabaId, c.phoneNumberId, c.apiToken, creationTime n⟩
      (.ok made, { w with connections := w.connections ++ [made], identities := n })) w
  | .sendText limit c phone body, w => sending "gateway.send_text" limit (.text phone body c.id) w
  | .sendTemplate limit c phone m, w => sending "gateway.send_template" limit (.template phone m c.id) w
  | .sendFlow limit c phone m, w => sending "gateway.send_flow" limit (.flow phone m c.id) w
  | .listTemplates limit _, w =>
    calling "gateway.list_templates" limit Fault.gateway (fun w => (.ok w.templates, w)) w
  | .sendHttp limit call, w =>
    calling "http.send" limit Fault.http (fun w => let (r, w) := w.reply; (.ok r, w))
      { w with http := w.http ++ [call] }
  | .now, w => (w.now, w)
  | .pick n, w =>
    (if w.picks.isEmpty then 0 else w.picks.getD (w.picked % w.picks.length) 0 % n,
      { w with picked := w.picked + 1 })
  | .freshToken, w => ("00000000-0000-4000-8000-000000000000", w)
  | .freshIdentity, w =>
    ((.numbered (w.identities + 1), creationTime (w.identities + 1)), { w with identities := w.identities + 1 })
  | .spawn r, w => ((), { w with forwarded := w.forwarded ++ [r] })

def backlog : Backlog World where
  take w :=
    match w.forwarded with
    | [] => none
    | r :: rest => some (r, { w with forwarded := rest })

end World
end Outreach.Simulation
