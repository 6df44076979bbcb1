import Outreach.Json.Decode
import Outreach.Uuid
import Outreach.Time.Instant

/-! Outgoing messages and the connections they are sent over. -/
namespace Outreach
open Decode

structure MessageTemplate where
  id : String
  name : String
  language : String
  status : String
  category : Option String
  deriving DecidableEq, Repr

namespace MessageTemplate

def isApproved (t : MessageTemplate) : Bool := Text.sameIgnoringCase t.status "APPROVED"

def decode : Decoder MessageTemplate :=
  (MessageTemplate.mk <$> Fields.required "id" string <*> Fields.required "name" string <*>
    Fields.required "language" string <*> Fields.required "status" string <*>
    Fields.withDefault "category" none (option string)).object

def encode (t : MessageTemplate) : Json :=
  .obj [("id", .str t.id), ("name", .str t.name), ("language", .str t.language), ("status", .str t.status),
    ("category", .optStr t.category)]

end MessageTemplate

structure TemplateMessage where
  templateName : String
  languageCode : String
  components : List Json

structure FlowMessage where
  flowId : String
  flowToken : String

structure Connection where
  id : Uuid
  userId : Uuid
  name : String
  wabaId : String
  phoneNumberId : String
  apiToken : String
  createdAt : Instant

structure NewConnection where
  userId : Uuid
  name : String
  wabaId : String
  phoneNumberId : String
  apiToken : String

end Outreach
