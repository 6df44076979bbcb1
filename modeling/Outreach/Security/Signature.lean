import Outreach.Security.Sha256
import Outreach.Text.Basic

/-! Checking who a request comes from: signed webhook deliveries and shared bearer secrets. -/
namespace Outreach
open Text

inductive SignatureError where
  | missing
  | mismatch
  | bearerMismatch
  deriving DecidableEq, Repr

def SignatureError.message : SignatureError → String
  | .missing => "signature header missing"
  | .mismatch => "signature mismatch"
  | .bearerMismatch => "bearer token mismatch"

namespace Signature

def scheme : String := "sha256="

def sign (secret body : List UInt8) : String := scheme ++ hexOfBytes (Sha256.hmac secret body)

/-- A byte as two hexadecimal digits, or as one after a plus sign. -/
def pairValue? (a b : Char) : Option UInt8 :=
  match if a = '+' then some 0 else hexValue? a, hexValue? b with
  | some x, some y => some (UInt8.ofNat (16 * x + y))
  | _, _ => none

def pairs? : List Char → Option (List UInt8)
  | [] => some []
  | [_] => none
  | a :: b :: r => do
    let x ← pairValue? a b
    let rest ← pairs? r
    return x :: rest

def constantTimeEq (a b : List UInt8) : Bool :=
  a.length == b.length && (a.zip b).foldl (fun acc p => acc ||| (p.1 ^^^ p.2)) (0 : UInt8) == 0

def verify (secret body : List UInt8) (header : Option String) : Except SignatureError Unit :=
  match header with
  | none => .error .missing
  | some h =>
    let digits := (after? scheme.toList h.toList).getD h.toList
    match pairs? digits with
    | none => .error .mismatch
    | some given => if constantTimeEq (Sha256.hmac secret body) given then .ok () else .error .mismatch

def verifyBearer (expected : String) (header : Option String) : Except SignatureError Unit :=
  match header.bind fun h => after? "Bearer ".toList h.toList with
  | none => .error .missing
  | some token =>
    if constantTimeEq (bytes expected) (bytes (String.ofList token)) then .ok () else .error .bearerMismatch

end Signature
end Outreach
