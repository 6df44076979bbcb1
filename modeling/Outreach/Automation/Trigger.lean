import Outreach.Json.Decode

/-! What starts an automation. Empty texts accept anything. -/
namespace Outreach
open Decode

inductive MessageMatch where
  | any
  | contains
  | exact
  deriving DecidableEq, Repr, Inhabited

def MessageMatch.names : List (String × MessageMatch) :=
  [("any", .any), ("contains", .contains), ("exact", .exact)]

def MessageMatch.text : MessageMatch → String
  | .any => "any"
  | .contains => "contains"
  | .exact => "exact"

inductive Trigger where
  | contactCreated
  | tagAdded (value : String)
  | crmStageChanged (boardId stageId : String)
  | contextMessage (kind : MessageMatch) (value : String)
  | webhook (webhookId : String) (isListening : Bool) (lastSample : Option Json)

namespace Trigger

def subType : Trigger → String
  | .contactCreated => "contact_created"
  | .tagAdded _ => "tag_added"
  | .crmStageChanged _ _ => "crm_stage_changed"
  | .contextMessage _ _ => "context_message"
  | .webhook _ _ _ => "webhook"

def tagAddedFields : Fields Trigger := .tagAdded <$> .withDefault "value" "" string

def crmStageChangedFields : Fields Trigger :=
  .crmStageChanged <$> .withDefault "crmBoardId" "" string <*> .withDefault "crmStageId" "" string

def contextMessageFields : Fields Trigger :=
  .contextMessage <$> .withDefault "match" .any (choice MessageMatch.names) <*>
    .withDefault "value" "" string

def webhookFields : Fields Trigger :=
  .webhook <$> .required "webhookId" string <*> .withDefault "isListening" false bool <*>
    .withDefault "lastSample" none (option json)

def decode : Decoder Trigger :=
  tagged "type" [
    ("contact_created", bare .contactCreated),
    ("tag_added", tagAddedFields.object),
    ("crm_stage_changed", crmStageChangedFields.object),
    ("context_message", contextMessageFields.object),
    ("webhook", webhookFields.object)]

def details : Trigger → List (String × Json)
  | .contactCreated => []
  | .tagAdded v => [("value", .str v)]
  | .crmStageChanged b s => [("crmBoardId", .str b), ("crmStageId", .str s)]
  | .contextMessage m v => [("match", .str m.text), ("value", .str v)]
  | .webhook w l s =>
    [("webhookId", .str w), ("isListening", .bool l), ("lastSample", .ofOption id s)]

def encode (t : Trigger) : Json := .obj (("type", .str t.subType) :: t.details)

end Trigger
end Outreach
