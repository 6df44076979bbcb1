import Outreach.Board
import Outreach.Contact.Patch
import Outreach.Engine.Failure
import Outreach.Engine.HttpCall
import Outreach.Event
import Outreach.Message
import Outreach.Task
import Outreach.Time.Zone

/-! The engine as a program that asks for one thing at a time: storage, the messaging provider, other
servers, the clock and chance. Each request is answered at once and as a whole. What answers is left
open, so that one program runs over a database, in a simulation and beside other programs. -/
namespace Outreach

inductive Audience where
  | user (id : Uuid)
  | all
  deriving DecidableEq

structure ForwardedRun where
  automation : Automation
  contact : Contact
  eventContext : Json
  connection : Connection
  depth : Nat

inductive Request where
  | createAutomation (a : Automation)
  | getAutomation (id : Uuid)
  | listAutomations (audience : Audience)
  | updateAutomation (a : Automation)
  | setStatus (id : Uuid) (status : AutomationStatus)
  | mergeStats (id : Uuid) (delta : ExecutionStats)
  | deleteAutomation (id : Uuid)
  | getContact (id : Int)
  | findContact (user : Uuid) (phone : String)
  | findContactAnywhere (phone : String)
  | createContact (c : NewContact)
  | updateContact (id : Int) (p : ContactPatch)
  | insertTask (t : NewTask)
  | dueTasks (now : Instant)
  | claimTask (id : Int)
  | updateTask (id : Int) (status : TaskStatus) (error : Option String)
  | listBoards (user : Uuid)
  | allStages (user : Uuid)
  | saveBoard (b : Board)
  | getConnection (id : Uuid)
  | firstConnection (user : Uuid)
  | listConnections (user : Option Uuid)
  | createConnection (c : NewConnection)
  | sendText (limit : Nat) (connection : Connection) (phone body : String)
  | sendTemplate (limit : Nat) (connection : Connection) (phone : String) (message : TemplateMessage)
  | sendFlow (limit : Nat) (connection : Connection) (phone : String) (message : FlowMessage)
  | listTemplates (limit : Nat) (connection : Connection)
  | sendHttp (limit : Nat) (call : HttpCall)
  | now
  | pick (n : Nat)
  | freshToken
  | freshIdentity
  | spawn (run : ForwardedRun)

@[reducible] def Request.Reply : Request → Type
  | .createAutomation _ | .updateAutomation _ | .mergeStats _ _ => Except RepositoryError Unit
  | .updateContact _ _ | .updateTask _ _ _ | .saveBoard _ => Except RepositoryError Unit
  | .getAutomation _ => Except RepositoryError (Option Automation)
  | .listAutomations _ => Except RepositoryError (List Automation)
  | .setStatus _ _ | .deleteAutomation _ | .claimTask _ => Except RepositoryError Bool
  | .getContact _ | .findContact _ _ | .findContactAnywhere _ => Except RepositoryError (Option Contact)
  | .createContact _ => Except RepositoryError Contact
  | .insertTask _ => Except RepositoryError Int
  | .dueTasks _ => Except RepositoryError (List ScheduledTask)
  | .listBoards _ => Except RepositoryError (List Board)
  | .allStages _ => Except RepositoryError (List Stage)
  | .getConnection _ | .firstConnection _ => Except RepositoryError (Option Connection)
  | .listConnections _ => Except RepositoryError (List Connection)
  | .createConnection _ => Except RepositoryError Connection
  | .sendText .. | .sendTemplate .. | .sendFlow .. => Except (Outcall GatewayError) Unit
  | .listTemplates _ _ => Except (Outcall GatewayError) (List MessageTemplate)
  | .sendHttp _ _ => Except (Outcall HttpError) HttpReply
  | .now => Instant
  | .pick _ => Nat
  | .freshToken => String
  | .freshIdentity => Uuid × Instant
  | .spawn _ => Unit

inductive Program (α : Type) where
  | done (a : α)
  | ask (r : Request) (next : r.Reply → Program α)
  /-- Goes on without end and without asking for anything. -/
  | endless

namespace Program
variable {α β σ : Type}

def bind : Program α → (α → Program β) → Program β
  | .done a, f => f a
  | .ask r next, f => .ask r fun x => (next x).bind f
  | .endless, _ => .endless

instance : Monad Program where
  pure := .done
  bind := bind

def request (r : Request) : Program r.Reply := .ask r .done

abbrev Handler (σ : Type) := (r : Request) → σ → r.Reply × σ

/-- The result and the state left behind, none for a program that does not end. -/
def run (h : Handler σ) : Program α → σ → Option (α × σ)
  | .done a, s => some (a, s)
  | .ask r next, s => (next (h r s).1).run h (h r s).2
  | .endless, _ => none

end Program

abbrev Attempt (ε : Type) := ExceptT ε Program

namespace Attempt
variable {ε ε' α : Type}

def of (f : ε' → ε) (p : Program (Except ε' α)) : Attempt ε α :=
  ExceptT.mk (p >>= fun
    | .ok a => pure (.ok a)
    | .error e => pure (.error (f e)))

def always (p : Program α) : Attempt ε α := ExceptT.lift p

end Attempt
end Outreach
