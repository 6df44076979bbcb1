import Outreach.Json.Decode

/-! Notifications of the messaging provider, as far as the engine reacts to them. -/
namespace Outreach
open Decode

structure InboundMessage where
  id : String
  sender : String
  kind : String
  text : Option String

structure NotificationChange where
  field : String
  messages : List InboundMessage

structure NotificationEntry where
  id : String
  changes : List NotificationChange

structure Notification where
  object : String
  entry : List NotificationEntry

structure InboundText where
  messageId : String
  sender : String
  body : String
  deriving DecidableEq, Repr

namespace Notification

def messageFields : Fields InboundMessage :=
  InboundMessage.mk <$> .withDefault "id" "" string <*> .required "from" string <*>
    .required "type" string <*>
    .withDefault "text" none (option (Fields.required "body" string).object)

def changeFields : Fields NotificationChange :=
  NotificationChange.mk <$> .withDefault "field" "" string <*>
    .withDefault "value" [] (Fields.withDefault "messages" [] (list messageFields.object)).object

def entryFields : Fields NotificationEntry :=
  NotificationEntry.mk <$> .withDefault "id" "" string <*>
    .withDefault "changes" [] (list changeFields.object)

def decode : Decoder Notification :=
  (Notification.mk <$> Fields.withDefault "object" "" string <*>
    Fields.withDefault "entry" [] (list entryFields.object)).object

def InboundMessage.inboundText? (m : InboundMessage) : Option InboundText :=
  if m.kind = "text" then m.text.map fun body => ⟨m.id, m.sender, body⟩ else none

def textMessages (n : Notification) : List InboundText :=
  if n.object = "whatsapp_business_account" then
    n.entry.flatMap fun e => e.changes.flatMap fun c =>
      if c.field = "messages" then c.messages.filterMap InboundMessage.inboundText? else []
  else []

end Notification
end Outreach
