import Outreach.Json.Basic

/-! Templates. A token is two opening braces, one or more characters other than a closing brace, and two
closing braces; it stands for the value that its dotted path leads to. -/
namespace Outreach
open Text

namespace Json

def child? (segment : List Char) : Json → Option Json
  | .obj ms => Keyed.get? ms (String.ofList segment)
  | .arr items => (natural? (Nat.pow 2 64) segment).bind fun i => items[i]?
  | _ => none

def lookup? (j : Json) (path : List Char) : Option Json :=
  (splitAt '.' (trimChars path)).foldl (fun found s => found.bind (child? s)) (some j)

def rendered? : Json → Option (List Char)
  | .null => none
  | .arr xs => some (chars (.arr xs))
  | .obj ms => some (chars (.obj ms))
  | j => j.scalarText?.map String.toList

end Json

namespace Template

def token? : List Char → Option (List Char)
  | '\x7b' :: '\x7b' :: r =>
    let path := r.takeWhile (· != '\x7d')
    if !path.isEmpty && ['\x7d', '\x7d'].isPrefixOf (r.dropWhile (· != '\x7d')) then some path else none
  | _ => none

/-- What a token becomes; one that leads nowhere or to null stays as it is. -/
def replacement (context : Json) (path : List Char) : List Char :=
  ((context.lookup? path).bind Json.rendered?).getD
    ('\x7b' :: '\x7b' :: (path ++ ['\x7d', '\x7d']))

/-- Copies the text from left to right; the first `skip` characters belong to a token already
replaced. -/
def fillFrom (context : Json) : Nat → List Char → List Char
  | _, [] => []
  | skip + 1, _ :: r => fillFrom context skip r
  | 0, c :: r =>
    match token? (c :: r) with
    | some path => replacement context path ++ fillFrom context (path.length + 3) r
    | none => c :: fillFrom context 0 r

end Template

def interpolate (template : String) (context : Json) : String :=
  String.ofList (Template.fillFrom context 0 template.toList)

end Outreach
