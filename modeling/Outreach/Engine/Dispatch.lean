import Outreach.Engine.Program

/-! What each kind of action does. -/
namespace Outreach

structure EngineSettings where
  maxForwardDepth : Nat
  outboundTimeoutMs : Nat
  zone : Zone

inductive ActionOutcome where
  | completed
  | wait (resumeAt : Instant)
  | forward (target : Automation)

namespace Action
variable (settings : EngineSettings)

abbrev Attempt := Outreach.Attempt ActionError

def stored {α : Type} (p : Program (Except RepositoryError α)) : Action.Attempt α := .of .repository p

def bounded {α ε : Type} (wrap : ε → ActionError) (p : Program (Except (Outcall ε) α)) :
    Action.Attempt α :=
  .of (fun
    | .failed e => wrap e
    | .givenUp => .timeout settings.outboundTimeoutMs) p

def sendText (contact : Contact) (connection : Connection) (context : Json) (text : String) :
    Action.Attempt Unit := do
  if text.isEmpty then return
  bounded settings .gateway <| .request <|
    .sendText settings.outboundTimeoutMs connection contact.phone (interpolate text context)

def sendTemplate (contact : Contact) (connection : Connection) (templateId : String) :
    Action.Attempt Unit := do
  if templateId.isEmpty then return
  let limit := settings.outboundTimeoutMs
  let templates ← bounded settings .gateway (.request (.listTemplates limit connection))
  match templates.find? fun t => t.id == templateId && t.isApproved with
  | none => return
  | some t =>
    bounded settings .gateway <| .request <|
      .sendTemplate limit connection contact.phone ⟨t.name, t.language, []⟩

def sendFlow (contact : Contact) (connection : Connection) (flowId : String) : Action.Attempt Unit := do
  if flowId.isEmpty then return
  let token ← Attempt.always (.request .freshToken)
  bounded settings .gateway <| .request <|
    .sendFlow settings.outboundTimeoutMs connection contact.phone ⟨flowId, token⟩

def changedTags (tags : List String) (tag : String) (add : Bool) : Option (List String) :=
  if add then if tags.contains tag then none else some (tags ++ [tag])
  else if tags.contains tag then some (tags.filter (· != tag))
  else none

/-- Works on the contact as it is stored now. -/
def changeTag (contactId : Int) (context : Json) (tagName : String) (add : Bool) : Action.Attempt Unit := do
  if tagName.isEmpty then return
  let tag := interpolate tagName context
  match ← stored (.request (.getContact contactId)) with
  | none => return
  | some current =>
    match changedTags current.tags tag add with
    | none => return
    | some tags => stored (.request (.updateContact contactId (.ofTags tags)))

def withMissing (tags more : List String) : List String :=
  more.foldl (fun ts t => if ts.contains t then ts else ts ++ [t]) tags

def stagePatch (current : Contact) (stage : Stage) : ContactPatch :=
  let tags := withMissing current.tags stage.tagsToApply
  { ContactPatch.empty with
    crmStageId := some stage.id
    tags := if tags.length == current.tags.length then none else some tags }

/-- Moves to the first stage of that id on any board of the contact's owner. -/
def moveStage (contact : Contact) (stageId : String) : Action.Attempt Unit := do
  if stageId.isEmpty then return
  let stages ← stored (.request (.allStages contact.userId))
  match stages.find? (·.id == stageId) with
  | none => return
  | some stage =>
    match ← stored (.request (.getContact contact.id)) with
    | none => return
    | some current => stored (.request (.updateContact contact.id (stagePatch current stage)))

def forwardTarget (automationId : String) : Action.Attempt (Option Automation) := do
  if automationId.isEmpty then return none
  match Uuid.parse? automationId with
  | none => return none
  | some id => stored (.request (.getAutomation id))

def callOut (contactId : Int) (spec : HttpRequestSpec) (context : Json) : Action.Attempt Unit := do
  if spec.url.isEmpty then return
  let reply ← bounded settings .http <| .request <|
    .sendHttp settings.outboundTimeoutMs (spec.call context)
  if !reply.isSuccess || spec.responseMapping.isEmpty then return
  match reply.json? with
  | none => return
  | some body =>
    let patch := HttpRequestSpec.patchFrom spec.responseMapping body
    if patch.isEmpty then return
    stored (.request (.updateContact contactId patch))

def perform (action : Action) (contact : Contact) (context : Json) (connection : Connection) :
    Action.Attempt ActionOutcome := do
  match action with
  | .sendMessage .text text _ _ => sendText settings contact connection context text
  | .sendMessage .template _ templateId _ => sendTemplate settings contact connection templateId
  | .sendMessage .flow _ _ flowId => sendFlow settings contact connection flowId
  | .wait delay unit =>
    let now ← Attempt.always (.request .now)
    match now.addSeconds? (delay * unit.seconds : Nat) with
    | some t => return .wait t
    | none => throw (.waitOutOfRange delay unit)
  | .addTag tagName => changeTag contact.id context tagName true
  | .removeTag tagName => changeTag contact.id context tagName false
  | .moveCrmStage _ stageId => moveStage contact stageId
  | .optOut => stored (.request (.updateContact contact.id .optOut))
  | .forwardAutomation automationId =>
    match ← forwardTarget automationId with
    | some target => return .forward target
    | none => return .completed
  | .httpRequest spec => callOut settings contact.id spec context
  | .conditional .. | .randomizer _ => return .completed
  return .completed

end Action
end Outreach
