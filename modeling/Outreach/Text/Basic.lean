/-! Text as lists of characters: white space, splitting, searching, numerals, and letter case in ASCII. -/
namespace Outreach.Text

/-- The Unicode property `White_Space`. -/
def isBlank (c : Char) : Bool :=
  let n := c.toNat
  (9 ≤ n && n ≤ 13) || n == 0x20 || n == 0x85 || n == 0xA0 || n == 0x1680 ||
    (0x2000 ≤ n && n ≤ 0x200A) || n == 0x2028 || n == 0x2029 || n == 0x202F || n == 0x205F ||
    n == 0x3000

def trimStart (s : List Char) : List Char := s.dropWhile isBlank

def trimChars (s : List Char) : List Char := (trimStart (trimStart s).reverse).reverse

def trim (s : String) : String := String.ofList (trimChars s.toList)

def splitWhere (p : Char → Bool) : List Char → List (List Char)
  | [] => [[]]
  | c :: r =>
    if p c then [] :: splitWhere p r
    else
      match splitWhere p r with
      | [] => [[c]]
      | w :: ws => (c :: w) :: ws

def splitAt (sep : Char) (s : List Char) : List (List Char) := splitWhere (· == sep) s

def words (s : List Char) : List (List Char) := (splitWhere isBlank s).filter (!·.isEmpty)

def after? (start s : List Char) : Option (List Char) :=
  if start.isPrefixOf s then some (s.drop start.length) else none

def startsWith (s start : String) : Bool := start.toList.isPrefixOf s.toList

def occursIn (needle : List Char) : List Char → Bool
  | [] => needle.isEmpty
  | c :: r => needle.isPrefixOf (c :: r) || occursIn needle r

def contains (s needle : String) : Bool := occursIn needle.toList s.toList

/-- Every occurrence of `old`, from the left, becomes `new`; the next `skip` characters belong to one. -/
def replacedFrom (old new : List Char) : Nat → List Char → List Char
  | _, [] => []
  | skip + 1, _ :: r => replacedFrom old new skip r
  | 0, c :: r =>
    if old.isPrefixOf (c :: r) then new ++ replacedFrom old new (old.length - 1) r
    else c :: replacedFrom old new 0 r

/-- The text with `new` in place of `old`; nothing is put in place of the empty text. -/
def replaced (s old new : String) : String :=
  if old.isEmpty || !contains s old then s else String.ofList (replacedFrom old.toList new.toList 0 s.toList)

def cutAt (sep : Char) (s : List Char) : Option (List Char × List Char) :=
  match s.dropWhile (· != sep) with
  | [] => none
  | _ :: r => some (s.takeWhile (· != sep), r)

def digitsValue (ds : List Char) : Nat := ds.foldl (fun n d => 10 * n + (d.toNat - 48)) 0

def digits? (s : List Char) : Option Nat :=
  if !s.isEmpty && s.all Char.isDigit then some (digitsValue s) else none

/-- A numeral below `bound`; one leading plus sign is allowed. -/
def natural? (bound : Nat) (s : List Char) : Option Nat :=
  let body := match s with
    | '+' :: r => r
    | _ => s
  (digits? body).filter (· < bound)

def integer? (s : List Char) : Option Int :=
  match s with
  | '-' :: r => (digits? r).bind fun n => if n ≤ Nat.pow 2 63 then some (-(n : Int)) else none
  | _ => (natural? (Nat.pow 2 63) s).map Int.ofNat

def decimal (n : Nat) : String := String.ofList (Nat.toDigits 10 n)

def decimalInt (i : Int) : String := if i < 0 then "-" ++ decimal i.natAbs else decimal i.natAbs

def padded (width n : Nat) : String :=
  let ds := Nat.toDigits 10 n
  String.ofList (List.replicate (width - ds.length) '0' ++ ds)

def asciiLower (s : String) : String := String.ofList (s.toList.map Char.toLower)

def asciiUpper (s : String) : String := String.ofList (s.toList.map Char.toUpper)

def sameIgnoringCase (a b : String) : Bool :=
  a.toList.map Char.toLower == b.toList.map Char.toLower

def hexValue? (c : Char) : Option Nat :=
  if '0' ≤ c && c ≤ '9' then some (c.toNat - 48)
  else if 'a' ≤ c && c ≤ 'f' then some (c.toNat - 87)
  else if 'A' ≤ c && c ≤ 'F' then some (c.toNat - 55)
  else none

def hexDigit (n : Nat) : Char := if n < 10 then Char.ofNat (48 + n) else Char.ofNat (87 + n)

def hexOfBytes (bytes : List UInt8) : String :=
  String.ofList (bytes.flatMap fun b => [hexDigit (b.toNat / 16), hexDigit (b.toNat % 16)])

def bytesOfHex? : List Char → Option (List UInt8)
  | [] => some []
  | [_] => none
  | a :: b :: r => do
    let x ← hexValue? a
    let y ← hexValue? b
    let rest ← bytesOfHex? r
    return UInt8.ofNat (16 * x + y) :: rest

def bytes (s : String) : List UInt8 := s.toUTF8.toList

def lastChars (n : Nat) (s : String) : String :=
  let cs := s.toList
  String.ofList (cs.drop (cs.length - n))

end Outreach.Text
