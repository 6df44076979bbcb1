import Outreach.Contact.Basic

/-! Partial updates of contacts. -/
namespace Outreach

structure ContactPatch where
  name : Option String
  phone : Option String
  tags : Option (List String)
  crmStageId : Option String
  isOptedOut : Option Bool
  is24hWindowOpen : Option Bool
  customFields : Keyed Json

namespace ContactPatch

def empty : ContactPatch := ⟨none, none, none, none, none, none, []⟩

def ofTags (tags : List String) : ContactPatch := { empty with tags := some tags }

def optOut : ContactPatch := { empty with isOptedOut := some true }

def isEmpty (p : ContactPatch) : Bool :=
  p.name.isNone && p.phone.isNone && p.tags.isNone && p.crmStageId.isNone && p.isOptedOut.isNone &&
    p.is24hWindowOpen.isNone && p.customFields.isEmpty

/-- Sets the column or custom field of that name. A later value of the wrong shape takes back an earlier
one, except for tags; identity and time columns cannot be set. -/
def setField (p : ContactPatch) (field : String) (value : Json) : ContactPatch :=
  match field with
  | "id" | "userId" | "createdAt" | "lastInteraction" => p
  | "name" => { p with name := value.scalarText? }
  | "phone" => { p with phone := value.scalarText? }
  | "crmStageId" => { p with crmStageId := value.scalarText? }
  | "tags" =>
    match value with
    | .arr items => { p with tags := some (items.filterMap Json.scalarText?) }
    | _ => p
  | "isOptedOutOfAutomations" => { p with isOptedOut := value.asBool? }
  | "is24hWindowOpen" => { p with is24hWindowOpen := value.asBool? }
  | _ => { p with customFields := Keyed.put field value p.customFields }

def apply (p : ContactPatch) (c : Contact) : Contact :=
  { c with
    name := p.name.getD c.name
    phone := p.phone.getD c.phone
    tags := p.tags.getD c.tags
    crmStageId := p.crmStageId <|> c.crmStageId
    isOptedOut := p.isOptedOut.getD c.isOptedOut
    is24hWindowOpen := p.is24hWindowOpen.getD c.is24hWindowOpen
    customFields := Keyed.merge c.customFields p.customFields }

end ContactPatch
end Outreach
