import Outreach.Automation.Action
import Outreach.Contact.Patch
import Outreach.Engine.Interpolation

/-! Outgoing calls of `http_request` nodes, and what is taken from the replies. -/
namespace Outreach

structure HttpCall where
  method : HttpMethod
  url : String
  headers : List (String × String)
  body : Option String
  deriving DecidableEq, Repr

def HttpCall.encode (c : HttpCall) : Json :=
  .obj [("method", .str c.method.text), ("url", .str c.url),
    ("headers", .arr (c.headers.map fun h => .strs [h.1, h.2])), ("body", .optStr c.body)]

structure HttpReply where
  status : Nat
  body : String
  deriving DecidableEq, Repr

def HttpReply.isSuccess (r : HttpReply) : Bool := 200 ≤ r.status && r.status < 300

def HttpReply.json? (r : HttpReply) : Option Json := Json.parse? r.body

namespace HttpRequestSpec

def call (s : HttpRequestSpec) (context : Json) : HttpCall :=
  let own := (s.headers.filter fun h => !h.key.isEmpty && !h.value.isEmpty).map fun h =>
    (h.key, interpolate h.value context)
  let typed := own.any fun h => Text.sameIgnoringCase h.1 "content-type"
  { method := s.method
    url := interpolate s.url context
    headers := if typed then own else ("Content-Type", "application/json") :: own
    body := if s.body.isEmpty then none else some (interpolate s.body context) }

/-- The contact fields that the mappings take from a reply, later mappings over earlier ones. -/
def patchFrom (mappings : List ResponseMapping) (body : Json) : ContactPatch :=
  mappings.foldl (fun p m =>
    match body.lookup? m.jsonPath.toList with
    | some v => p.setField m.contactField v
    | none => p) .empty

end HttpRequestSpec
end Outreach
