import Outreach.Automation.Basic

/-! Contacts: typed columns, and custom fields beside them. -/
namespace Outreach
open Decode

structure Contact where
  id : Int
  userId : Uuid
  name : String
  phone : String
  tags : List String
  crmStageId : Option String
  is24hWindowOpen : Bool
  isOptedOut : Bool
  lastInteraction : Option Instant
  createdAt : Instant
  customFields : Keyed Json

structure NewContact where
  userId : Uuid
  name : String
  phone : String
  tags : List String
  crmStageId : Option String
  customFields : Keyed Json

namespace Contact

def standardFields : List String :=
  ["id", "userId", "name", "phone", "tags", "crmStageId", "is24hWindowOpen", "isOptedOutOfAutomations",
    "lastInteraction", "createdAt"]

def isStandardField (key : String) : Bool := standardFields.contains key

def stripStandard (fields : Keyed Json) : Keyed Json := fields.filter fun e => !isStandardField e.1

def hasTag (c : Contact) (tag : String) : Bool := c.tags.contains tag

/-- The text of a field for comparisons; typed columns win over custom fields of their name. -/
def fieldText? (c : Contact) (field : String) : Option String :=
  match field with
  | "id" => some (Text.decimalInt c.id)
  | "name" => some c.name
  | "phone" => some c.phone
  | "crmStageId" => c.crmStageId
  | _ => (Keyed.get? c.customFields field).bind Json.scalarText?

def columns (c : Contact) : List (String × Json) :=
  [("id", .int c.id), ("userId", .str c.userId.text), ("name", .str c.name), ("phone", .str c.phone),
    ("tags", .strs c.tags), ("crmStageId", .optStr c.crmStageId),
    ("is24hWindowOpen", .bool c.is24hWindowOpen), ("isOptedOutOfAutomations", .bool c.isOptedOut),
    ("lastInteraction", .ofOption (fun t => .str t.text) c.lastInteraction),
    ("createdAt", .str c.createdAt.text)]

/-- Columns and custom fields in one object; here a custom field wins over a column of its name. -/
def encode (c : Contact) : Json := Json.sorted (.obj (c.columns ++ c.customFields))

def contextValue (c : Contact) : Json := encode { c with customFields := stripStandard c.customFields }

def fields : Fields (Keyed Json → Contact) :=
  Contact.mk <$> .required "id" int64 <*> .required "userId" uuid <*>
    .required "name" string <*> .required "phone" string <*> .withDefault "tags" [] (list string) <*>
    .withDefault "crmStageId" none (option string) <*> .withDefault "is24hWindowOpen" false bool <*>
    .withDefault "isOptedOutOfAutomations" false bool <*>
    .withDefault "lastInteraction" none (option instant) <*> .required "createdAt" instant

/-- Members that name no column become custom fields. -/
def decode : Decoder Contact
  | o, .obj ms => do
    Fields.visit fields.checks o [] ms
    let make ← fields.build o .members (Fields.memberFor ms)
    let others := ms.filter fun m => !m.1.any fun k => fields.checks.any (·.answersTo k)
    return make (← keyed json o (.obj others))
  | _, d => .error (mismatch d)

def phoneSuffix (phone : String) : String := Text.lastChars 4 phone

end Contact
end Outreach
