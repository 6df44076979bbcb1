import Outreach.Json.Decode

/-! Events that start automations, and the context a run takes from them. -/
namespace Outreach

structure StageRef where
  id : String
  title : String
  deriving DecidableEq, Repr

structure BoardRef where
  id : String
  name : String
  deriving DecidableEq, Repr

inductive Event where
  | contactCreated
  | tagAdded (tagName : String)
  | crmStageChanged (board : Option BoardRef) (stage : StageRef)
  | contextMessage (messageText : String)
  | webhook (payload : Json)

open Decode

def StageRef.decode : Decoder StageRef :=
  (StageRef.mk <$> Fields.required "id" string <*> Fields.withDefault "title" "" string).object

def BoardRef.decode : Decoder BoardRef :=
  (BoardRef.mk <$> Fields.required "id" string <*> Fields.withDefault "name" "" string).object

namespace Event

def subType : Event → String
  | .contactCreated => "contact_created"
  | .tagAdded _ => "tag_added"
  | .crmStageChanged _ _ => "crm_stage_changed"
  | .contextMessage _ => "context_message"
  | .webhook _ => "webhook"

def details : Event → List (String × Json)
  | .contactCreated => []
  | .tagAdded t => [("tagName", .str t)]
  | .crmStageChanged b s =>
    ("stage", .obj [("id", .str s.id), ("title", .str s.title)]) ::
      match b with
      | none => []
      | some b => [("board", .obj [("id", .str b.id), ("name", .str b.name)])]
  | .contextMessage m => [("messageText", .str m)]
  | .webhook p => [("webhook", p)]

def context (e : Event) (contactId : Int) : Json :=
  .obj (Keyed.ofList (("contactId", .int contactId) :: e.details))

end Event
end Outreach
