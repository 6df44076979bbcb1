import Outreach.Automation.Condition

/-! The steps of an automation. -/
namespace Outreach
open Decode

inductive MessageKind where
  | text
  | template
  | flow
  deriving DecidableEq, Repr, Inhabited

def MessageKind.names : List (String × MessageKind) :=
  [("text", .text), ("template", .template), ("flow", .flow)]

def MessageKind.name : MessageKind → String
  | .text => "text"
  | .template => "template"
  | .flow => "flow"

inductive WaitUnit where
  | minutes
  | hours
  | days
  deriving DecidableEq, Repr, Inhabited

namespace WaitUnit

def names : List (String × WaitUnit) := [("minutes", .minutes), ("hours", .hours), ("days", .days)]

def name : WaitUnit → String
  | .minutes => "minutes"
  | .hours => "hours"
  | .days => "days"

def title : WaitUnit → String
  | .minutes => "Minutes"
  | .hours => "Hours"
  | .days => "Days"

def seconds : WaitUnit → Nat
  | .minutes => 60
  | .hours => 3600
  | .days => 86400

end WaitUnit

inductive HttpMethod where
  | get
  | post
  | put
  | patch
  | delete
  deriving DecidableEq, Repr, Inhabited

def HttpMethod.text : HttpMethod → String
  | .get => "GET"
  | .post => "POST"
  | .put => "PUT"
  | .patch => "PATCH"
  | .delete => "DELETE"

def HttpMethod.names : List (String × HttpMethod) :=
  [.get, .post, .put, .patch, .delete].map fun m => (m.text, m)

structure HeaderPair where
  key : String
  value : String
  deriving DecidableEq, Repr

structure ResponseMapping where
  jsonPath : String
  contactField : String
  deriving DecidableEq, Repr

structure HttpRequestSpec where
  url : String
  method : HttpMethod
  headers : List HeaderPair
  body : String
  responseMapping : List ResponseMapping
  deriving DecidableEq, Repr

namespace HttpRequestSpec

def headerFields : Fields HeaderPair :=
  HeaderPair.mk <$> .withDefault "key" "" string <*> .withDefault "value" "" string

def mappingFields : Fields ResponseMapping :=
  ResponseMapping.mk <$> .required "jsonPath" string <*> .required "contactField" string

def fields : Fields HttpRequestSpec :=
  HttpRequestSpec.mk <$> .withDefault "url" "" string <*>
    .withDefault "method" .get (choice HttpMethod.names) <*>
    .withDefault "headers" [] (list headerFields.object) <*> .withDefault "body" "" string <*>
    .withDefault "responseMapping" [] (list mappingFields.object)

def decode : Decoder HttpRequestSpec := fields.object

def details (s : HttpRequestSpec) : List (String × Json) :=
  [("url", .str s.url), ("method", .str s.method.text),
    ("headers", .arr (s.headers.map fun h => .obj [("key", .str h.key), ("value", .str h.value)])),
    ("body", .str s.body),
    ("responseMapping", .arr (s.responseMapping.map fun m =>
      .obj [("jsonPath", .str m.jsonPath), ("contactField", .str m.contactField)]))]

def encode (s : HttpRequestSpec) : Json := .obj s.details

end HttpRequestSpec

inductive Action where
  | sendMessage (kind : MessageKind) (text templateId flowId : String)
  | wait (delay : Nat) (unit : WaitUnit)
  | addTag (tagName : String)
  | removeTag (tagName : String)
  | moveCrmStage (boardId stageId : String)
  | conditional (logic : Logic) (conditions : List Condition)
  | httpRequest (spec : HttpRequestSpec)
  | optOut
  | randomizer (branches : Nat)
  | forwardAutomation (automationId : String)
  deriving DecidableEq, Repr

namespace Action

def subType : Action → String
  | .sendMessage .. => "send_message"
  | .wait .. => "wait"
  | .addTag _ => "add_tag"
  | .removeTag _ => "remove_tag"
  | .moveCrmStage .. => "move_crm_stage"
  | .conditional .. => "conditional"
  | .httpRequest _ => "http_request"
  | .optOut => "opt_out"
  | .randomizer _ => "randomizer"
  | .forwardAutomation _ => "forward_automation"

def sendMessageFields : Fields Action :=
  .sendMessage <$> .withDefault "subType" .text (choice MessageKind.names) <*>
    .withDefault "text" "" string <*> .withDefault "templateId" "" string <*>
    .withDefault "flowId" "" string

def waitFields : Fields Action :=
  .wait <$> .withDefault "delay" 0 (nat (Nat.pow 2 32)) <*> .withDefault "unit" .minutes (choice WaitUnit.names)

def moveCrmStageFields : Fields Action :=
  .moveCrmStage <$> .withDefault "crmBoardId" "" string <*> .withDefault "crmStageId" "" string

def conditionalFields : Fields Action :=
  .conditional <$> .withDefault "logic" .and (choice Logic.names) <*>
    .withDefault "conditions" [] (list Condition.decode)

def decode : Decoder Action :=
  tagged "type" [
    ("send_message", sendMessageFields.object),
    ("wait", waitFields.object),
    ("add_tag", (Action.addTag <$> Fields.withDefault "tagName" "" string).object),
    ("remove_tag", (Action.removeTag <$> Fields.withDefault "tagName" "" string).object),
    ("move_crm_stage", moveCrmStageFields.object),
    ("conditional", conditionalFields.object),
    ("http_request", (Action.httpRequest <$> HttpRequestSpec.fields).object),
    ("opt_out", bare .optOut),
    ("randomizer", (Action.randomizer <$> Fields.withDefault "branches" 2 (nat (Nat.pow 2 32))).object),
    ("forward_automation",
      (Action.forwardAutomation <$> Fields.withDefault "automationId" "" string).object)]

def unlessEmpty (name value : String) : List (String × Json) :=
  if value.isEmpty then [] else [(name, .str value)]

def details : Action → List (String × Json)
  | .sendMessage kind t tpl f =>
    ("subType", .str kind.name) :: (unlessEmpty "text" t ++ unlessEmpty "templateId" tpl ++ unlessEmpty "flowId" f)
  | .wait d u => [("delay", .nat d), ("unit", .str u.name)]
  | .addTag t => [("tagName", .str t)]
  | .removeTag t => [("tagName", .str t)]
  | .moveCrmStage b s => [("crmBoardId", .str b), ("crmStageId", .str s)]
  | .conditional l cs => [("logic", .str l.text), ("conditions", .arr (cs.map Condition.encode))]
  | .httpRequest s => s.details
  | .optOut => []
  | .randomizer n => [("branches", .nat n)]
  | .forwardAutomation a => [("automationId", .str a)]

def encode (a : Action) : Json := .obj (("type", .str a.subType) :: a.details)

end Action
end Outreach
