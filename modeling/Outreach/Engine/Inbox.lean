import Outreach.Engine.Firing
import Outreach.Notification

/-! Incoming messages: each text message fires an event for the contact that sent it. -/
namespace Outreach

structure InboxSummary where
  messages : Nat
  dispatched : Nat
  unknownSenders : Nat
  failed : Nat
  deriving DecidableEq, Repr

namespace Inbox
variable (settings : EngineSettings) (limit : Nat)

def handle (text : InboundText) (s : InboxSummary) : Program InboxSummary := do
  match ← Program.request (.findContactAnywhere text.sender) with
  | .error _ => return { s with failed := s.failed + 1 }
  | .ok none => return { s with unknownSenders := s.unknownSenders + 1 }
  | .ok (some contact) =>
    match ← (fire settings limit (.contextMessage text.body) contact.id (.user contact.userId none)).run with
    | .ok _ => return { s with dispatched := s.dispatched + 1 }
    | .error _ => return { s with failed := s.failed + 1 }

def handleEach (s : InboxSummary) : List InboundText → Program InboxSummary
  | [] => pure s
  | t :: rest => do handleEach (← handle settings limit t s) rest

def process (n : Notification) : Program InboxSummary :=
  let texts := n.textMessages
  handleEach settings limit ⟨texts.length, 0, 0, 0⟩ texts

end Inbox
end Outreach
