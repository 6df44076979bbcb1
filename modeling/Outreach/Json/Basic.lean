import Outreach.Keyed
import Outreach.Number.Shortest

/-! JSON values and their text. A value keeps its members in ascending order of the keys; a value that is
only to be written may list them in another order. -/
namespace Outreach

/-- Integers between `-2 ^ 63` and `2 ^ 64 - 1` stay integers, all other numbers are floating. -/
inductive Number where
  | int (i : Int)
  | float (x : Binary64)
  deriving DecidableEq, Repr

def Number.text : Number → String
  | .int i => Text.decimalInt i
  | .float x => x.text

def Number.toFloat : Number → Binary64
  | .float x => x
  | .int i =>
    let x := (Binary64.ofNat i.natAbs).getD Binary64.zero
    if i < 0 then x.neg else x

inductive Json where
  | null
  | bool (b : Bool)
  | num (n : Number)
  | str (s : String)
  | arr (items : List Json)
  | obj (members : List (String × Json))
  deriving Inhabited

namespace Json

def nat (n : Nat) : Json := .num (.int n)

def int (i : Int) : Json := .num (.int i)

def strs (ss : List String) : Json := .arr (ss.map .str)

def ofOption {α : Type} (f : α → Json) : Option α → Json
  | none => .null
  | some a => f a

def optStr : Option String → Json := ofOption .str

def get? (j : Json) (key : String) : Option Json :=
  match j with
  | .obj ms => Keyed.get? ms key
  | _ => none

def asString? : Json → Option String
  | .str s => some s
  | _ => none

def asBool? : Json → Option Bool
  | .bool b => some b
  | _ => none

def asInt? : Json → Option Int
  | .num (.int i) => some i
  | _ => none

def asArray? : Json → Option (List Json)
  | .arr xs => some xs
  | _ => none

def scalarText? : Json → Option String
  | .str s => some s
  | .num n => some n.text
  | .bool b => some (if b then "true" else "false")
  | _ => none

mutual

/-- Sorts the members of every object; of several members with one key the last stays. -/
def sorted : Json → Json
  | .arr xs => .arr (sortedItems xs)
  | .obj ms => .obj (Keyed.ofList (sortedMembers ms))
  | j => j

def sortedItems : List Json → List Json
  | [] => []
  | j :: r => sorted j :: sortedItems r

def sortedMembers : List (String × Json) → List (String × Json)
  | [] => []
  | (k, j) :: r => (k, sorted j) :: sortedMembers r

end

def escaped (c : Char) : List Char :=
  if c == '"' then ['\\', '"']
  else if c == '\\' then ['\\', '\\']
  else if c == '\n' then ['\\', 'n']
  else if c == '\r' then ['\\', 'r']
  else if c == '\t' then ['\\', 't']
  else if c.toNat == 8 then ['\\', 'b']
  else if c.toNat == 12 then ['\\', 'f']
  else if c.toNat < 32 then
    ['\\', 'u', '0', '0', Text.hexDigit (c.toNat / 16), Text.hexDigit (c.toNat % 16)]
  else [c]

def quoted (s : String) : List Char := '"' :: (s.toList.flatMap escaped ++ ['"'])

mutual

def chars : Json → List Char
  | .null => "null".toList
  | .bool true => "true".toList
  | .bool false => "false".toList
  | .num n => n.text.toList
  | .str s => quoted s
  | .arr xs => '[' :: (itemChars xs ++ [']'])
  | .obj ms => '{' :: (memberChars ms ++ ['}'])

def itemChars : List Json → List Char
  | [] => []
  | [j] => chars j
  | j :: r => chars j ++ ',' :: itemChars r

def memberChars : List (String × Json) → List Char
  | [] => []
  | [(k, j)] => quoted k ++ ':' :: chars j
  | (k, j) :: r => quoted k ++ ':' :: (chars j ++ ',' :: memberChars r)

end

def text (j : Json) : String := String.ofList j.chars

def indent (depth : Nat) : List Char := '\n' :: List.replicate (2 * depth) ' '

mutual

def prettyChars (depth : Nat) : Json → List Char
  | .arr [] => ['[', ']']
  | .arr (j :: r) =>
    '[' :: (indent (depth + 1) ++ prettyChars (depth + 1) j ++ prettyItems (depth + 1) r ++
      indent depth ++ [']'])
  | .obj [] => ['{', '}']
  | .obj ((k, j) :: r) =>
    '{' :: (indent (depth + 1) ++ quoted k ++ ':' :: ' ' :: prettyChars (depth + 1) j ++
      prettyMembers (depth + 1) r ++ indent depth ++ ['}'])
  | j => chars j

def prettyItems (depth : Nat) : List Json → List Char
  | [] => []
  | j :: r => ',' :: (indent depth ++ prettyChars depth j ++ prettyItems depth r)

def prettyMembers (depth : Nat) : List (String × Json) → List Char
  | [] => []
  | (k, j) :: r =>
    ',' :: (indent depth ++ quoted k ++ ':' :: ' ' :: prettyChars depth j ++ prettyMembers depth r)

end

def pretty (j : Json) : String := String.ofList (prettyChars 0 j)

end Json
end Outreach
