import Outreach.Text.Percent

/-! Absolute addresses of servers, as far as it matters whether a call can be made at all: scheme, host and
number. The rules are those of the URL standard for schemes with a host. -/
namespace Outreach

structure ServerAddress where
  scheme : String
  host : String
  portNumber : Option Nat
  deriving DecidableEq, Repr

namespace ServerAddress
open Text

def isTabOrNewline (c : Char) : Bool := c == '\t' || c == '\n' || c == '\r'

/-- Control characters and blanks at the ends count for nothing, nor do tabs and line ends anywhere. -/
def cleaned (s : List Char) : List Char :=
  let isEdge (c : Char) : Bool := c.toNat ≤ 32
  (((s.dropWhile isEdge).reverse.dropWhile isEdge).reverse).filter (!isTabOrNewline ·)

def scheme? (s : List Char) : Option (String × List Char) := do
  let (name, r) ← cutAt ':' s
  match name with
  | [] => none
  | c :: cs =>
    if c.isAlpha && cs.all fun c => c.isAlphanum || c == '+' || c == '-' || c == '.' then
      some (asciiLower (String.ofList name), r)
    else none

def isSlash (c : Char) : Bool := c == '/' || c == '\\'

def endsAuthority (c : Char) : Bool := isSlash c || c == '?' || c == '#'

def afterUser? (authority : List Char) : Option (List Char) :=
  let host := (authority.reverse.takeWhile (· != '@')).reverse
  if host.isEmpty && !authority.isEmpty then none else some host

def splitHost (inBrackets : Bool) : List Char → List Char × Option (List Char)
  | [] => ([], none)
  | c :: r =>
    if c == ':' && !inBrackets then ([], some r)
    else
      let (h, p) := splitHost (if c == '[' then true else if c == ']' then false else inBrackets) r
      (c :: h, p)

def portNumber? (s : List Char) : Option (Option Nat) :=
  if s.isEmpty then some none
  else (digits? s).bind fun n => if n < Nat.pow 2 16 then some (some n) else none

def isForbidden (c : Char) : Bool := c.toNat ≤ 32 || c.toNat == 127 || "#/:<>?@[\\]^|%".toList.contains c

/-- A part of a numeric address: decimal, octal after `0`, hexadecimal after `0x`. -/
def numericPart? (s : List Char) : Option Nat :=
  let inBase (base : Nat) (ds : List Char) : Option Nat := do
    let vs ← ds.mapM hexValue?
    if vs.all (· < base) then some (vs.foldl (fun n v => base * n + v) 0) else none
  match s with
  | [] => none
  | '0' :: 'x' :: r | '0' :: 'X' :: r => inBase 16 r
  | '0' :: c :: r => inBase 8 (c :: r)
  | s => inBase 10 s

def labels (host : List Char) : List (List Char) :=
  let parts := splitAt '.' host
  if parts.getLast? = some [] && 1 < parts.length then parts.dropLast else parts

def endsInNumber (host : List Char) : Bool :=
  match (labels host).getLast? with
  | some l => (!l.isEmpty && l.all Char.isDigit) || (l.head? == some '0' && (numericPart? l).isSome)
  | none => false

/-- Up to four parts: each but the last a byte, the last filling the bytes that are left. -/
def isNumericAddress (host : List Char) : Bool :=
  let parts := labels host
  match parts.mapM numericPart? with
  | none => false
  | some ns =>
    ns.length ≤ 4 && ns.dropLast.all (· < 256) && ns.getLast?.any (· < Nat.pow 256 (5 - ns.length))

/-- Eight groups of up to four hexadecimal digits, of which one run of zeros may be left out; the last two
may be written as a numeric address of four decimal bytes. -/
def isGroupedAddress (s : List Char) : Bool :=
  let isGroup (g : List Char) : Bool := !g.isEmpty && g.length ≤ 4 && g.all fun c => (hexValue? c).isSome
  let isByte (b : List Char) : Bool :=
    (digits? b).any (· < 256) && (b.length == 1 || b.head? != some '0')
  let isQuad (g : List Char) : Bool := (splitAt '.' g).length == 4 && (splitAt '.' g).all isByte
  /- The number of groups, none when one of them is wrong. -/
  let count? (mayEnd : Bool) (part : List Char) : Option Nat :=
    if part.isEmpty then some 0
    else
      let gs := splitAt ':' part
      match gs.getLast? with
      | some last =>
        if mayEnd && isQuad last && gs.dropLast.all isGroup then some (gs.length + 1)
        else if gs.all isGroup then some gs.length
        else none
      | none => none
  let pieces (s : List Char) : List (List Char) :=
    ((String.ofList s).splitOn "::").map String.toList
  match pieces s with
  | [whole] => count? true whole == some 8
  | [before, after] =>
    match count? false before, count? true after with
    | some a, some b => a + b ≤ 7
    | _, _ => false
  | _ => false

def host? (s : List Char) : Option String :=
  match s with
  | [] => none
  | '[' :: r =>
    if r.getLast? = some ']' && isGroupedAddress r.dropLast then some (asciiLower (String.ofList s)) else none
  | s => do
    let name ← ofBytes? (percentDecoded (bytes (String.ofList s)))
    let cs := name.toList.map Char.toLower
    if cs.isEmpty || cs.any isForbidden then none
    else if endsInNumber cs && !isNumericAddress cs then none
    else some (String.ofList cs)

def ofUrl? (url : String) : Option ServerAddress := do
  let (scheme, r) ← scheme? (cleaned url.toList)
  if scheme != "http" && scheme != "https" then none
  let authority := (r.dropWhile isSlash).takeWhile (!endsAuthority ·)
  let (host, number) := splitHost false (← afterUser? authority)
  return ⟨scheme, ← host? host, ← portNumber? (number.getD [])⟩

end ServerAddress
end Outreach
