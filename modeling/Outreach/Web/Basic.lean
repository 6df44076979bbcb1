import Outreach.Json.Basic
import Outreach.Text.Percent
import Outreach.Time.Instant
import Outreach.Uuid

/-! Requests to the service over the web, and its responses. -/
namespace Outreach.Web

inductive Method where
  | get
  | head
  | post
  | options
  | other (name : String)
  deriving DecidableEq, Repr

def Method.ofText (s : String) : Method :=
  match s with
  | "GET" => .get
  | "HEAD" => .head
  | "POST" => .post
  | "OPTIONS" => .options
  | s => .other s

structure Body where
  bytes : List UInt8
  deriving DecidableEq, Repr

instance : Coe String Body := ⟨fun s => ⟨Text.bytes s⟩⟩

structure Request where
  method : Method
  path : String
  query : String
  headers : List (String × String)
  body : Body
  deriving DecidableEq, Repr

/-- Path and query of a request target; what follows a number sign counts for nothing. -/
def splitTarget (target : String) : String × String :=
  let cs := target.toList.takeWhile (· != '#')
  match Text.cutAt '?' cs with
  | some (path, query) => (String.ofList path, String.ofList query)
  | none => (String.ofList cs, "")

def bodyLimit : Nat := 2097152

namespace Request

def isOverlong (r : Request) : Bool := bodyLimit < r.body.bytes.length

/-- Header values of other characters cannot be told. -/
def isVisible (c : Char) : Bool := c == '\t' || (32 ≤ c.toNat && c.toNat < 127)

def header? (r : Request) (name : String) : Option String :=
  ((r.headers.find? fun h => Text.sameIgnoringCase h.1 name).map (·.2)).filter (·.toList.all isVisible)

end Request

structure Response where
  status : Nat
  contentType : Option String
  body : String
  deriving DecidableEq, Repr

structure Trace where
  requestId : Uuid
  time : Instant
  milliseconds : Nat

def Trace.encode (t : Trace) : Json :=
  .obj [("request_id", .str t.requestId.text), ("timestamp", .str t.time.text),
    ("response_time_ms", .nat t.milliseconds)]

inductive Content where
  | nothing
  | text (s : String)
  | data (j : Json)
  | error (code message : String)

def Content.response (status : Nat) (t : Trace) : Content → Response
  | .nothing => ⟨status, none, ""⟩
  | .text s => ⟨status, some "text/plain; charset=utf-8", s⟩
  | .data j => ⟨status, some "application/json",
    (Json.obj [("data", j), ("meta", t.encode), ("errors", .arr [])]).text⟩
  | .error code message => ⟨status, some "application/json",
    (Json.obj [("data", .null), ("meta", t.encode),
      ("errors", .arr [.obj [("code", .str code), ("message", .str message)]])]).text⟩

def Response.sentTo (method : Method) (r : Response) : Response :=
  if method = .head then { r with body := "" } else r

end Outreach.Web
