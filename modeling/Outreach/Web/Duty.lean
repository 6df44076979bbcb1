import Outreach.Config.Basic
import Outreach.Engine.Failure
import Outreach.Json.Bytes
import Outreach.Notification
import Outreach.Security.Signature
import Outreach.Web.Basic
import Outreach.Web.Handshake

/-! What a request asks of the service. Who sent it is checked here, before anything is done. -/
namespace Outreach.Web

inductive Refusal where
  | intake (e : IntakeError)
  | sweep (e : SweepError)
  | signature (e : SignatureError)
  | noCronSecret
  | malformedBody

namespace Refusal

def status : Refusal → Nat
  | .intake (.unknownWebhook _) | .intake (.noConnection _) => 404
  | .intake .missingPhone | .malformedBody => 400
  | .intake _ | .sweep _ => 500
  | .signature _ | .noCronSecret => 401

def code : Refusal → String
  | .intake (.unknownWebhook _) => "WEBHOOK_NOT_FOUND"
  | .intake (.noConnection _) => "CONNECTION_NOT_FOUND"
  | .intake .missingPhone | .malformedBody => "VALIDATION_ERROR"
  | .intake _ => "INTAKE_ERROR"
  | .sweep _ => "SWEEP_ERROR"
  | .signature _ | .noCronSecret => "UNAUTHORIZED"

def message : Refusal → String
  | .intake e => e.message
  | .sweep e => e.message
  | .signature e => e.message
  | .noCronSecret => "cron secret is not configured"
  | .malformedBody => "body is not valid JSON"

end Refusal

inductive Duty where
  | respond (status : Nat) (content : Content)
  | refuse (r : Refusal)
  | health
  | sweep
  | intake (webhookId : String) (body : Json)
  | deliver (n : Notification)

inductive Route where
  | health
  | provider
  /-- The id is still percent-encoded. -/
  | webhook (id : List Char)
  | sweep
  deriving DecidableEq, Repr

def Route.ofPath? (path : String) : Option Route :=
  match (Text.splitAt '/' path.toList).map String.ofList with
  | ["", "health"] => some .health
  | ["", "webhooks", "meta"] => some .provider
  | ["", "api", "v1", "automation-webhooks", id] => if id.isEmpty then none else some (.webhook id.toList)
  | ["", "api", "v1", "cron", "process-automations"] => some .sweep
  | _ => none

def bare (status : Nat) : Duty := .respond status .nothing

def overlong : Duty := .respond 413 (.text "Failed to buffer the request body: length limit exceeded")

def subscription (c : ProviderConfig) (query : String) : Duty :=
  match Handshake.ofQuery query with
  | .error field =>
    .respond 400 (.text ("Failed to deserialize query string: duplicate field `" ++ field ++ "`"))
  | .ok h =>
    match c.verifyToken, h.mode, h.token, h.challenge with
    | some expected, some "subscribe", some token, some challenge =>
      if Signature.constantTimeEq (Text.bytes expected) (Text.bytes token) then .respond 200 (.text challenge)
      else bare 403
    | _, _, _, _ => bare 403

def received : Json := .obj [("received", .bool true)]

/-- Deliveries that cannot be read are acknowledged and passed over. -/
def delivery (c : ProviderConfig) (r : Request) : Duty :=
  let checked := match c.appSecret with
    | some secret =>
      Signature.verify (Text.bytes secret) r.body.bytes (r.header? "x-hub-signature-256")
    | none => .ok ()
  if r.isOverlong then overlong
  else match checked, Decode.ofBytes Notification.decode r.body.bytes with
    | .error e, _ => .refuse (.signature e)
    | .ok (), .ok n => .deliver n
    | .ok (), .error _ => .respond 200 (.data received)

def webhook (id : List Char) (r : Request) : Duty :=
  match Text.ofBytes? (Text.percentDecoded (Text.bytes (String.ofList id))) with
  | none => .respond 400 (.text "Invalid URL: Invalid UTF-8 in `webhook_id`")
  | some id =>
    if r.isOverlong then overlong
    else match Json.parseBytes? r.body.bytes with
      | none => .refuse .malformedBody
      | some body => .intake id body

def scheduledSweep (c : Config) (r : Request) : Duty :=
  match c.cronSecret with
  | none => .refuse .noCronSecret
  | some secret =>
    match Signature.verifyBearer secret (r.header? "authorization") with
    | .error e => .refuse (.signature e)
    | .ok () => .sweep

/-- Browsers may ask from everywhere what they may send. -/
def duty (c : Config) (r : Request) : Duty :=
  match r.method, Route.ofPath? r.path with
  | .options, _ => bare 200
  | _, none => bare 404
  | .get, some .health | .head, some .health => .health
  | .get, some .provider | .head, some .provider => subscription c.provider r.query
  | .post, some .provider => delivery c.provider r
  | .post, some (.webhook id) => webhook id r
  | .post, some .sweep => scheduledSweep c r
  | _, some _ => bare 405

end Outreach.Web
