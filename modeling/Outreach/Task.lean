import Outreach.Automation.Basic

/-! Suspended runs that wait for their time. -/
namespace Outreach
open Decode

inductive TaskStatus where
  | pending
  | processing
  | processed
  | failed
  deriving DecidableEq, Repr, Inhabited

namespace TaskStatus

def text : TaskStatus → String
  | .pending => "pending"
  | .processing => "processing"
  | .processed => "processed"
  | .failed => "failed"

def names : List (String × TaskStatus) :=
  [.pending, .processing, .processed, .failed].map fun s => (s.text, s)

def parse (s : String) : Except String TaskStatus :=
  match names.find? (·.1 == s) with
  | some n => .ok n.2
  | none => .error ("invalid task status: '" ++ s ++ "'")

def isTerminal : TaskStatus → Bool
  | .processed | .failed => true
  | _ => false

end TaskStatus

structure ScheduledTask where
  id : Int
  userId : Uuid
  contactId : Int
  automationId : Uuid
  connectionId : Uuid
  resumeFromNodeId : String
  executeAt : Instant
  /-- The event context of the run; the contact is loaded anew. -/
  context : Json
  status : TaskStatus
  errorMessage : Option String
  createdAt : Instant

structure NewTask where
  userId : Uuid
  contactId : Int
  automationId : Uuid
  connectionId : Uuid
  resumeFromNodeId : String
  executeAt : Instant
  context : Json

namespace ScheduledTask

def decode : Decoder ScheduledTask :=
  (ScheduledTask.mk <$> Fields.required "id" int64 <*>
    Fields.required "userId" uuid <*> Fields.required "contactId" int64 <*>
    Fields.required "automationId" uuid <*> Fields.required "connectionId" uuid <*>
    Fields.required "resumeFromNodeId" string <*> Fields.required "executeAt" instant <*>
    Fields.required "context" json <*> Fields.required "status" (choice TaskStatus.names) <*>
    Fields.optional "errorMessage" string <*> Fields.required "createdAt" instant).object

def encode (t : ScheduledTask) : Json :=
  .obj [("id", .int t.id), ("userId", .str t.userId.text), ("contactId", .int t.contactId),
    ("automationId", .str t.automationId.text), ("connectionId", .str t.connectionId.text),
    ("resumeFromNodeId", .str t.resumeFromNodeId), ("executeAt", .str t.executeAt.text),
    ("context", t.context), ("status", .str t.status.text), ("errorMessage", .optStr t.errorMessage),
    ("createdAt", .str t.createdAt.text)]

end ScheduledTask
end Outreach
