import Outreach.Json.Basic

/-! JSON texts as read: members in text order with repetitions, and the places where a text yields no
value kept apart from the place where it stops being JSON. Whoever skips a part of a text is not
disturbed by what has no value there. -/
namespace Outreach

inductive Doc where
  | null
  | bool (b : Bool)
  | num (n : Number)
  | str (s : String)
  | arr (items : List Doc)
  /-- Members in text order; a key without a value is none. -/
  | obj (members : List (Option String × Doc))
  /-- Well-formed, but a lone surrogate, a number out of range or a container nested too deeply. -/
  | unreadable
  /-- The text is no JSON from here on. -/
  | broken
  deriving Inhabited

namespace Doc

mutual

def ofJson : Json → Doc
  | .null => .null
  | .bool b => .bool b
  | .num n => .num n
  | .str s => .str s
  | .arr xs => .arr (ofItems xs)
  | .obj ms => .obj (ofMembers ms)

def ofItems : List Json → List Doc
  | [] => []
  | j :: r => ofJson j :: ofItems r

def ofMembers : List (String × Json) → List (Option String × Doc)
  | [] => []
  | (k, j) :: r => (some k, ofJson j) :: ofMembers r

end

mutual

def value? : Doc → Option Json
  | .null => some .null
  | .bool b => some (.bool b)
  | .num n => some (.num n)
  | .str s => some (.str s)
  | .arr xs => (itemValues? xs).map .arr
  | .obj ms => (memberValues? ms).map fun vs => .obj (Keyed.ofList vs)
  | .unreadable => none
  | .broken => none

def itemValues? : List Doc → Option (List Json)
  | [] => some []
  | d :: r => do
    let v ← value? d
    let vs ← itemValues? r
    return v :: vs

def memberValues? : List (Option String × Doc) → Option (List (String × Json))
  | [] => some []
  | (k, d) :: r => do
    let k ← k
    let v ← value? d
    let vs ← memberValues? r
    return (k, v) :: vs

end

mutual

/-- Whether a text can be skipped: it is JSON to its end, with or without a value. -/
def isWhole : Doc → Bool
  | .arr xs => itemsWhole xs
  | .obj ms => membersWhole ms
  | .broken => false
  | _ => true

def itemsWhole : List Doc → Bool
  | [] => true
  | d :: r => isWhole d && itemsWhole r

def membersWhole : List (Option String × Doc) → Bool
  | [] => true
  | (_, d) :: r => isWhole d && membersWhole r

end

end Doc
end Outreach
