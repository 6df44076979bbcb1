import Outreach.Automation.Basic
import Outreach.Time.Span

/-! What can go wrong while automations are stored and run, and how it is put into words. -/
namespace Outreach

inductive RepositoryError where
  | connection
  | query (reason : String)
  | notFound
  | conflict (reason : String)
  deriving DecidableEq, Repr

inductive GatewayError where
  | api (message : String) (code : Option Int)
  | timeout
  | transport (reason : String)
  | invalidResponse (reason : String)
  deriving DecidableEq, Repr

inductive HttpError where
  | invalidRequest (reason : String)
  | timeout
  | transport (reason : String)
  deriving DecidableEq, Repr

inductive Outcall (ε : Type) where
  | failed (e : ε)
  | givenUp
  deriving DecidableEq, Repr

inductive ConditionError where
  | contactMissing (id : Int)
  | repository (e : RepositoryError)
  deriving DecidableEq, Repr

inductive ActionError where
  | repository (e : RepositoryError)
  | gateway (e : GatewayError)
  | http (e : HttpError)
  | timeout (ms : Nat)
  | condition (e : ConditionError)
  | waitOutOfRange (delay : Nat) (unit : WaitUnit)
  deriving DecidableEq, Repr

structure RunError where
  automationId : Uuid
  cause : RepositoryError
  deriving DecidableEq

inductive FireError where
  | contact (e : RepositoryError)
  | connection (e : RepositoryError)
  | automations (e : RepositoryError)
  deriving DecidableEq, Repr

structure SweepError where
  cause : RepositoryError
  deriving DecidableEq, Repr

inductive IntakeError where
  | unknownWebhook (webhookId : String)
  | missingPhone
  | noConnection (user : Uuid)
  | repository (e : RepositoryError)
  | fire (e : FireError)
  deriving DecidableEq

inductive GraphFault where
  | emptyNodeId
  | duplicateNodeId (id : String)
  | unknownNode (edge : Edge) (id : String)
  | noTrigger
  deriving DecidableEq, Repr

inductive ManagementError where
  | notFound (id : Uuid)
  | emptyName
  | graph (fault : GraphFault)
  | parse (cause : DecodeError)
  | storage (e : RepositoryError)

def RepositoryError.message : RepositoryError → String
  | .connection => "database connection error"
  | .query r => "query error: " ++ r
  | .notFound => "entity not found"
  | .conflict r => "conflict: " ++ r

def GatewayError.message : GatewayError → String
  | .api m _ => "messaging API error: " ++ m
  | .timeout => "messaging API request timed out"
  | .transport r => "transport error: " ++ r
  | .invalidResponse r => "unexpected response: " ++ r

def HttpError.message : HttpError → String
  | .invalidRequest r => "invalid request: " ++ r
  | .timeout => "request timed out"
  | .transport r => "request failed: " ++ r

def ConditionError.message : ConditionError → String
  | .contactMissing id => "contact " ++ Text.decimalInt id ++ " no longer exists"
  | .repository e => "contact lookup failed: " ++ e.message

def ActionError.message : ActionError → String
  | .repository e => "storage error: " ++ e.message
  | .gateway e => "messaging gateway error: " ++ e.message
  | .http e => "http request error: " ++ e.message
  | .timeout ms => "outbound call timed out after " ++ Time.spanText ms
  | .condition e => "condition evaluation failed: " ++ e.message
  | .waitOutOfRange d u =>
    "wait of " ++ Text.decimal d ++ " " ++ u.title ++ " ends past the supported date range"

def RunError.message (e : RunError) : String :=
  "failed to persist execution stats for automation " ++ e.automationId.text ++ ": " ++ e.cause.message

def FireError.message : FireError → String
  | .contact e => "failed to load contact: " ++ e.message
  | .connection e => "failed to resolve connection: " ++ e.message
  | .automations e => "failed to load automations: " ++ e.message

def SweepError.message (e : SweepError) : String := "failed to list due tasks: " ++ e.cause.message

def IntakeError.message : IntakeError → String
  | .unknownWebhook w => "no active automation listens on webhook '" ++ w ++ "'"
  | .missingPhone => "payload has no phone number"
  | .noConnection u => "user " ++ u.text ++ " has no messaging connection"
  | .repository e => "storage error: " ++ e.message
  | .fire e => e.message

def GraphFault.message : GraphFault → String
  | .emptyNodeId => "node with empty id"
  | .duplicateNodeId id => "duplicate node id '" ++ id ++ "'"
  | .unknownNode e id =>
    "edge " ++ e.source ++ " -> " ++ e.target ++ " references unknown node '" ++ id ++ "'"
  | .noTrigger => "an active automation needs a trigger node"

def ManagementError.message : ManagementError → String
  | .notFound id => "automation " ++ id.text ++ " not found"
  | .emptyName => "invalid automation name: name cannot be empty"
  | .graph f => "invalid automation graph: " ++ f.message
  | .parse .malformed => "failed to parse automation document"
  | .parse e => "failed to parse automation document: " ++ e.message
  | .storage e => "storage error: " ++ e.message

end Outreach
