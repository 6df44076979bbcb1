import Outreach.Engine.Firing

/-! Webhook intake: a body posted to a webhook becomes a sample while its trigger listens, and otherwise
finds or makes a contact and fires its events. -/
namespace Outreach

inductive IntakeOutcome where
  | sampleCaptured (automationId : Uuid)
  | dispatched (contactId : Int) (created : Bool) (reports : List DispatchReport)

namespace Automation

def listensOn? (a : Automation) (webhookId : String) : Option Bool :=
  a.triggers.findSome? fun
    | .webhook id listening _ => if id = webhookId then some listening else none
    | _ => none

def captureIn (webhookId : String) (body : Json) : List Node → List Node
  | [] => []
  | n :: r =>
    match n.data with
    | .trigger (.webhook id _ _) =>
      if id = webhookId then { n with data := .trigger (.webhook id false (some body)) } :: r
      else n :: captureIn webhookId body r
    | _ => n :: captureIn webhookId body r

/-- The body becomes the sample of the first trigger for the webhook, which stops listening. -/
def captureSample (a : Automation) (webhookId : String) (body : Json) : Automation :=
  { a with nodes := captureIn webhookId body a.nodes }

end Automation

namespace Intake

/-- The phone of a body: a text that is not blank, trimmed, or a number. -/
def phone? (body : Json) : Option String :=
  let phone := match body.get? "phone" with
    | some (.str s) => Text.trim s
    | some (.num n) => n.text
    | _ => ""
  if phone.isEmpty then none else some phone

def name (body : Json) (phone : String) : String :=
  let given := (((body.get? "name").bind Json.asString?).map Text.trim).getD ""
  if given.isEmpty then "Contato Webhook " ++ Contact.phoneSuffix phone else given

def tags (body : Json) : List String :=
  (((body.get? "tags").bind Json.asArray?).getD []).filterMap Json.asString?

def customFields : Json → Keyed Json
  | .obj ms => Contact.stripStandard ms
  | _ => []

def newContact (owner : Uuid) (phone : String) (body : Json) (boards : List Board) : NewContact :=
  { userId := owner
    name := name body phone
    phone := phone
    tags := tags body
    crmStageId := (boards.head?.bind (·.stages.head?)).map (·.id)
    customFields := customFields body }

abbrev Attempt := Outreach.Attempt IntakeError

def stored {α : Type} (p : Program (Except RepositoryError α)) : Intake.Attempt α := .of .repository p

def contactFor (owner : Uuid) (phone : String) (body : Json) : Intake.Attempt (Contact × Bool) := do
  match ← stored (.request (.findContact owner phone)) with
  | some c => return (c, false)
  | none =>
    let boards ← stored (.request (.listBoards owner))
    return (← stored (.request (.createContact (newContact owner phone body boards))), true)

def events (body : Json) (contact : Contact) (created : Bool) : List Event :=
  .webhook body :: if created then .contactCreated :: contact.tags.map .tagAdded else []

variable (settings : EngineSettings) (limit : Nat)

def fireEach (contactId : Int) (scope : Scope) (reports : List DispatchReport) :
    List Event → Intake.Attempt (List DispatchReport)
  | [] => return reports
  | e :: rest => do
    let report ← Attempt.of .fire (fire settings limit e contactId scope).run
    fireEach contactId scope (reports ++ [report]) rest

def handle (webhookId : String) (body : Json) : Intake.Attempt IntakeOutcome := do
  let automations ← stored (.request (.listAutomations .all))
  match automations.find? fun a => a.status == .active && (a.listensOn? webhookId).isSome with
  | none => throw (.unknownWebhook webhookId)
  | some automation =>
    if automation.listensOn? webhookId == some true then
      stored (.request (.updateAutomation (automation.captureSample webhookId body)))
      return .sampleCaptured automation.id
    match phone? body with
    | none => throw .missingPhone
    | some phone =>
      let owner := automation.userId
      let (contact, created) ← contactFor owner phone body
      match ← stored (.request (.firstConnection owner)) with
      | none => throw (.noConnection owner)
      | some connection =>
        let reports ← fireEach settings limit contact.id (.user owner (some connection)) []
          (events body contact created)
        return .dispatched contact.id created reports

end Intake
end Outreach
