import Outreach.Text.CaseTable

/-! Full lower-casing of Unicode text. -/
namespace Outreach.Text

def inRanges (ranges : List (Nat × Nat)) (c : Char) : Bool :=
  ranges.any fun r => r.1 ≤ c.toNat && c.toNat ≤ r.2

def isCased (c : Char) : Bool := inRanges casedRanges c

def isCaseIgnorable (c : Char) : Bool := inRanges caseIgnorableRanges c

def lowerChar (c : Char) : List Char :=
  if c.toNat < 128 then [c.toLower]
  else if c.toNat == 0x130 then ['i', Char.ofNat 0x307]
  else
    match lowerRanges.find? (·.covers c.toNat) with
    | some r => [Char.ofNat ((c.toNat : Int) + r.shift).toNat]
    | none => [c]

def meetsLetter (s : List Char) : Bool :=
  match s.dropWhile isCaseIgnorable with
  | [] => false
  | c :: _ => isCased c

/-- A capital sigma that ends a word becomes the final form; `before` lists what precedes, nearest first. -/
def lowerAfter (before : List Char) : List Char → List Char
  | [] => []
  | c :: r =>
    let here :=
      if c.toNat == 0x3A3 then
        [Char.ofNat (if meetsLetter before && !meetsLetter r then 0x3C2 else 0x3C3)]
      else lowerChar c
    here ++ lowerAfter (c :: before) r

def lower (s : String) : String :=
  let cs := s.toList
  if cs.all (·.toNat < 128) then String.ofList (cs.map Char.toLower)
  else String.ofList (lowerAfter [] cs)

end Outreach.Text
