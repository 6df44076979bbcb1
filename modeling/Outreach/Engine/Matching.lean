import Outreach.Contact.Basic
import Outreach.Event
import Outreach.Text.Lower

/-! Which automations an event starts. -/
namespace Outreach

namespace Trigger

def messageMatches (kind : MessageMatch) (value text : String) : Bool :=
  value.isEmpty ||
    match kind with
    | .any => true
    | .contains => Text.contains (Text.lower text) (Text.lower value)
    | .exact => Text.lower text == Text.lower value

def accepts : Trigger → Event → Bool
  | .contactCreated, .contactCreated => true
  | .webhook .., .webhook _ => true
  | .tagAdded value, .tagAdded tag => value.isEmpty || value == tag
  | .crmStageChanged boardId stageId, .crmStageChanged board stage =>
    (boardId.isEmpty || board.any (·.id == boardId)) && (stageId.isEmpty || stage.id == stageId)
  | .contextMessage kind value, .contextMessage text => messageMatches kind value text
  | _, _ => false

end Trigger

def Automation.startsOn (a : Automation) (e : Event) (c : Contact) : Bool :=
  a.status == .active && !(a.blockOnOpenChat && c.is24hWindowOpen) && a.triggers.any (·.accepts e)

def selectAutomations (automations : List Automation) (e : Event) (c : Contact) : List Automation :=
  automations.filter (·.startsOn e c)

end Outreach
