import Outreach.Config.Basic
import Outreach.Network.Client
import Outreach.Text.Lower

/-! The messaging provider: the calls that send messages and list templates, and what its replies say. -/
namespace Outreach
open Decode

structure ProviderError where
  message : String
  code : Option Int
  subcode : Option Int
  userTitle : Option String
  userMessage : Option String
  deriving DecidableEq, Repr

namespace ProviderError

def fields : Fields ProviderError :=
  let number := option int64
  ProviderError.mk <$> .withDefault "message" "" string <*> .withDefault "code" none number <*>
    .withDefault "error_subcode" none number <*> .withDefault "error_user_title" none (option string) <*>
    .withDefault "error_user_msg" none (option string)

def envelope : Decoder ProviderError := (Fields.required "error" fields.object).object

/-- The error in words: what can be done about it if that is known, else what the provider says to users,
else its own message. -/
def describe (e : ProviderError) : String :=
  let low := Text.lower e.message
  if e.code = some 190 ∨ Text.contains low "token" = true then
    "access token is invalid or expired; generate a new one in the Meta dashboard"
  else if e.code = some 10 ∨ e.code = some 200 ∨ Text.contains low "permission" = true then
    "permission denied; the token lacks the required WhatsApp permissions"
  else
    match e.userTitle, e.userMessage with
    | some title, some text => title ++ ": " ++ text
    | _, _ => if e.message.isEmpty then "unknown Graph API error" else e.message

end ProviderError

namespace MessageTemplate

/-- Deleted templates stay listed for a while. -/
def isDeleted (t : MessageTemplate) : Bool := Text.sameIgnoringCase t.status "DELETED"

def listedDecode : Decoder MessageTemplate :=
  (MessageTemplate.mk <$> Fields.required "id" string <*> Fields.required "name" string <*>
    Fields.withDefault "language" "" string <*> Fields.withDefault "status" "" string <*>
    Fields.withDefault "category" none (option string)).object

def listDecode : Decoder (List MessageTemplate) :=
  (Fields.withDefault "data" [] (list listedDecode)).object

end MessageTemplate

structure Provider where
  base : String
  flowTexts : FlowTexts

namespace Provider

def ofConfig (c : ProviderConfig) : Provider :=
  ⟨String.ofList (c.graphApiBase.toList.reverse.dropWhile (· == '/')).reverse, c.flowTexts⟩

def authorization (c : Connection) : String × String := ("authorization", "Bearer " ++ c.apiToken)

def messageCall (p : Provider) (c : Connection) (phone type : String) (content : Json) : HttpCall :=
  { method := .post
    url := p.base ++ "/" ++ c.phoneNumberId ++ "/messages"
    headers := [authorization c, ("content-type", "application/json")]
    body := some (Json.obj [("messaging_product", .str "whatsapp"), ("to", .str phone), ("type", .str type),
      (type, content)]).text }

def textCall (p : Provider) (c : Connection) (phone body : String) : HttpCall :=
  p.messageCall c phone "text" (.obj [("preview_url", .bool true), ("body", .str body)])

def templateCall (p : Provider) (c : Connection) (phone : String) (m : TemplateMessage) : HttpCall :=
  p.messageCall c phone "template" (.obj [("name", .str m.templateName),
    ("language", .obj [("code", .str m.languageCode)]), ("components", .arr m.components)])

def flowCall (p : Provider) (c : Connection) (phone : String) (m : FlowMessage) : HttpCall :=
  p.messageCall c phone "interactive" (.obj [("type", .str "flow"),
    ("header", .obj [("type", .str "text"), ("text", .str p.flowTexts.header)]),
    ("body", .obj [("text", .str p.flowTexts.body)]), ("footer", .obj [("text", .str p.flowTexts.footer)]),
    ("action", .obj [("name", .str "flow"), ("parameters", .obj [("flow_message_version", .str "3"),
      ("flow_token", .str m.flowToken), ("flow_id", .str m.flowId), ("flow_cta", .str p.flowTexts.cta),
      ("flow_action", .str "navigate")])])])

def templatesCall (p : Provider) (c : Connection) : HttpCall :=
  { method := .get
    url := p.base ++ "/" ++ c.wabaId ++
      "/message_templates?fields=name%2Cstatus%2Ccategory%2Clanguage%2Ccomponents%2Cid%2Crejected_reason&limit=100"
    headers := [authorization c]
    body := none }

def failure (r : HttpReply) : GatewayError :=
  match ofText ProviderError.envelope r.body with
  | .ok e => .api e.describe e.code
  | .error _ => .api ("HTTP " ++ Text.decimal r.status ++ ": " ++ r.body) none

def ask {α : Type} (network : Network) (dec : Decoder α) (c : HttpCall) : Except GatewayError α :=
  match c.fault? with
  | some reason => .error (.transport reason)
  | none =>
    match network c with
    | .error .timeout => .error .timeout
    | .error (.transport reason) => .error (.transport reason)
    | .ok r =>
      if r.isSuccess then
        match ofText dec r.body with
        | .ok a => .ok a
        | .error e => .error (.invalidResponse ("failed to parse response: " ++ e.message))
      else .error (failure r)

def acknowledgement : Decoder (List String) :=
  (Fields.withDefault "messages" [] (list (Fields.required "id" string).object)).object

def deliver (network : Network) (c : HttpCall) : Except GatewayError (Option String) :=
  (ask network acknowledgement c).map List.head?

def templates (network : Network) (p : Provider) (c : Connection) : Except GatewayError (List MessageTemplate) :=
  (ask network MessageTemplate.listDecode (p.templatesCall c)).map fun ts => ts.filter (!·.isDeleted)

end Provider
end Outreach
