import Outreach.Text.Basic

/-! Universally unique identifiers in their hyphenated lower-case form. -/
namespace Outreach

namespace Uuid

def isLowerHex (c : Char) : Bool := c.isDigit || ('a' ≤ c && c ≤ 'f')

def hasShape (p : Char → Bool) (s : List Char) : Bool :=
  (Text.splitAt '-' s).map List.length == [8, 4, 4, 4, 12] && s.all fun c => c == '-' || p c

def hyphenate (s : List Char) : List Char :=
  s.take 8 ++ '-' :: ((s.drop 8).take 4 ++ '-' :: ((s.drop 12).take 4 ++ '-' ::
    ((s.drop 16).take 4 ++ '-' :: s.drop 20)))

end Uuid

structure Uuid where
  text : String
  canonical : Uuid.hasShape Uuid.isLowerHex text.toList = true
  deriving DecidableEq

namespace Uuid

def ofLower? (s : List Char) : Option Uuid :=
  let t := String.ofList (s.map Char.toLower)
  if h : hasShape isLowerHex t.toList = true then some ⟨t, h⟩ else none

def stripBraces? (s : List Char) : Option (List Char) :=
  match s with
  | '\x7b' :: r => if r.getLast? = some '\x7d' then some r.dropLast else none
  | _ => none

/-- Hyphenated, in braces or after `urn:uuid:`, or 32 digits in a row; letters of either case. -/
def parse? (s : String) : Option Uuid :=
  let cs := s.toList
  if cs.length = 32 then ofLower? (hyphenate cs)
  else
    match stripBraces? cs, Text.after? "urn:uuid:".toList cs with
    | some inner, _ => ofLower? inner
    | none, some inner => ofLower? inner
    | none, none => ofLower? cs

instance : Inhabited Uuid := ⟨⟨"00000000-0000-0000-0000-000000000000", by decide⟩⟩

def numbered (n : Nat) : Uuid := (parse? ("ffffffff-0000-7000-8000-" ++ Text.padded 12 n)).getD default

end Uuid
end Outreach
