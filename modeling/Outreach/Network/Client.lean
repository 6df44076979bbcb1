import Outreach.Engine.Failure
import Outreach.Engine.HttpCall
import Outreach.Network.Url

/-! Calling other servers. What lies beyond is a function from calls to replies. -/
namespace Outreach

inductive NetworkFault where
  | timeout
  | transport (reason : String)
  deriving DecidableEq, Repr

abbrev Network := HttpCall → Except NetworkFault HttpReply

def Network.unreachable : Network := fun c => .error (.transport ("error sending request for url (" ++ c.url ++ ")"))

namespace HttpCall

def isHeaderName (s : String) : Bool :=
  !s.isEmpty && s.toList.all fun c => c.isAlphanum || "!#$%&'*+-.^_`|~".toList.contains c

def isHeaderValue (s : String) : Bool := s.toList.all fun c => c == '\t' || (32 ≤ c.toNat && c.toNat != 127)

def fault? (c : HttpCall) : Option String :=
  if (ServerAddress.ofUrl? c.url).isNone then some ("invalid URL '" ++ c.url ++ "'")
  else (c.headers.find? fun h => !(isHeaderName h.1 && isHeaderValue h.2)).map fun h => "invalid header '" ++ h.1 ++ "'"

def send (network : Network) (c : HttpCall) : Except HttpError HttpReply :=
  match c.fault? with
  | some reason => .error (.invalidRequest reason)
  | none =>
    match network c with
    | .ok r => .ok r
    | .error .timeout => .error .timeout
    | .error (.transport reason) => .error (.transport reason)

end HttpCall
end Outreach
