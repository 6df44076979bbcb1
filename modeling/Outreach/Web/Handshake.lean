import Outreach.Text.Percent

/-! The subscription handshake: the provider presents a token and a challenge in the query of a request. -/
namespace Outreach.Web

/-- A plus sign in a query stands for a blank; percent signs stand for bytes. -/
def queryText (cs : List Char) : String :=
  let spaced := cs.map fun c => if c == '+' then ' ' else c
  Text.ofBytesLossy (Text.percentDecoded (Text.bytes (String.ofList spaced)))

def queryFields (query : String) : List (String × String) :=
  ((Text.splitAt '&' query.toList).filter (!·.isEmpty)).map fun f =>
    match Text.cutAt '=' f with
    | some (k, v) => (queryText k, queryText v)
    | none => (queryText f, "")

structure Handshake where
  mode : Option String
  token : Option String
  challenge : Option String
  deriving DecidableEq, Repr

namespace Handshake

def add? (h : Handshake) (field : String × String) : Option Handshake :=
  let (k, v) := field
  let put (old : Option String) (new : Handshake) : Option Handshake :=
    if old.isSome then none else some new
  match k with
  | "hub.mode" => put h.mode { h with mode := some v }
  | "hub.verify_token" => put h.token { h with token := some v }
  | "hub.challenge" => put h.challenge { h with challenge := some v }
  | _ => some h

def ofFields (h : Handshake) : List (String × String) → Except String Handshake
  | [] => .ok h
  | f :: r =>
    match h.add? f with
    | some h => ofFields h r
    | none => .error f.1

def ofQuery (query : String) : Except String Handshake := ofFields ⟨none, none, none⟩ (queryFields query)

end Handshake
end Outreach.Web
