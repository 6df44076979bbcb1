import Outreach.Json.Doc
import Outreach.Text.Bytes

/-! Reading JSON texts: characters to tokens, and tokens to a document by a stack of open containers. -/
namespace Outreach.Json

inductive Token where
  | openList
  | closeList
  | openObject
  | closeObject
  | comma
  | colon
  | null
  | bool (b : Bool)
  /-- None for a number out of range. -/
  | num (n : Option Number)
  /-- None for a text with a lone surrogate. -/
  | str (s : Option String)
  /-- No token starts here; it is the last one of its text. -/
  | junk
  deriving DecidableEq, Repr

def hex4? (a b c d : Char) : Option Nat := do
  let w ← Text.hexValue? a
  let x ← Text.hexValue? b
  let y ← Text.hexValue? c
  let z ← Text.hexValue? d
  return 4096 * w + 256 * x + 16 * y + z

def scanString (acc : List Char) (readable : Bool) : List Char → Option (Option String × List Char)
  | [] => none
  | '"' :: r => some (if readable then some (String.ofList acc.reverse) else none, r)
  | '\\' :: 'u' :: a :: b :: c :: d :: r =>
    match hex4? a b c d with
    | none => none
    | some n =>
      if n < 0xD800 || 0xE000 ≤ n then scanString (Char.ofNat n :: acc) readable r
      else
        match r with
        | '\\' :: 'u' :: e :: f :: g :: h :: r' =>
          match hex4? e f g h with
          | none => none
          | some m =>
            if n < 0xDC00 && 0xDC00 ≤ m && m < 0xE000 then
              scanString (Char.ofNat (0x10000 + 1024 * (n - 0xD800) + (m - 0xDC00)) :: acc) readable r'
            else scanString acc false ('\\' :: 'u' :: e :: f :: g :: h :: r')
        | r => scanString acc false r
  | '\\' :: e :: r =>
    match e with
    | '"' => scanString ('"' :: acc) readable r
    | '\\' => scanString ('\\' :: acc) readable r
    | '/' => scanString ('/' :: acc) readable r
    | 'b' => scanString (Char.ofNat 8 :: acc) readable r
    | 'f' => scanString (Char.ofNat 12 :: acc) readable r
    | 'n' => scanString ('\n' :: acc) readable r
    | 'r' => scanString ('\r' :: acc) readable r
    | 't' => scanString ('\t' :: acc) readable r
    | _ => none
  | c :: r => if c.toNat < 32 then none else scanString (c :: acc) readable r

/-- The value of a numeral from its integer digits, fraction digits and exponent. Digits enter the
significand while it fits 64 bits. Later integer digits count as powers of ten, later fraction digits
are dropped. -/
structure Numeral where
  significand : Nat
  exponent : Int

namespace Numeral

def integerDigits (x : Numeral) (full : Bool) : List Char → Numeral × Bool
  | [] => (x, full)
  | d :: r =>
    let s := 10 * x.significand + (d.toNat - 48)
    if full || Nat.pow 2 64 ≤ s then integerDigits { x with exponent := x.exponent + 1 } true r
    else integerDigits { x with significand := s } false r

def fractionDigits (x : Numeral) : List Char → Numeral
  | [] => x
  | d :: r =>
    let s := 10 * x.significand + (d.toNat - 48)
    if Nat.pow 2 64 ≤ s then x else fractionDigits ⟨s, x.exponent - 1⟩ r

end Numeral

def numberOf (negative : Bool) (whole : List Char) (fraction : Option (List Char))
    (exponent : Option (Bool × List Char)) : Option Number :=
  let (x, full) := Numeral.integerDigits ⟨0, 0⟩ false whole
  let signed (y : Binary64) : Number := .float (if negative then y.neg else y)
  match fraction, exponent with
  | none, none =>
    if full then (Binary64.ofDecimal x.significand x.exponent).map signed
    else if !negative then some (.int x.significand)
    else if 0 < x.significand && x.significand ≤ Nat.pow 2 63 then some (.int (-(x.significand : Int)))
    else (Binary64.ofNat x.significand).map signed
  | _, _ =>
    let x := x.fractionDigits (fraction.getD [])
    let e : Int := match exponent with
      | none => 0
      | some (down, ds) => if down then -(Text.digitsValue ds : Int) else Text.digitsValue ds
    (Binary64.ofDecimal x.significand (x.exponent + e)).map signed

def spanDigits (s : List Char) : List Char × List Char := (s.takeWhile Char.isDigit, s.dropWhile Char.isDigit)

def scanNumber (s : List Char) : Option (Option Number × List Char) :=
  let (negative, s) := match s with
    | '-' :: r => (true, r)
    | _ => (false, s)
  let (whole, s) := spanDigits s
  if whole.isEmpty || (whole.head? == some '0' && 1 < whole.length) then none
  else
    let withFraction : Option (Option (List Char) × List Char) := match s with
      | '.' :: r =>
        let (ds, r) := spanDigits r
        if ds.isEmpty then none else some (some ds, r)
      | _ => some (none, s)
    match withFraction with
    | none => none
    | some (fraction, s) =>
      let exponentPart (r : List Char) : Option (Option (Bool × List Char) × List Char) :=
        let (down, r) := match r with
          | '-' :: r => (true, r)
          | '+' :: r => (false, r)
          | _ => (false, r)
        let (ds, r) := spanDigits r
        if ds.isEmpty then none else some (some (down, ds), r)
      let withExponent := match s with
        | 'e' :: r => exponentPart r
        | 'E' :: r => exponentPart r
        | _ => some (none, s)
      withExponent.map fun (exponent, rest) => (numberOf negative whole fraction exponent, rest)

/-- The tokens of a text; `fuel` is at least its length. -/
def tokens : Nat → List Char → List Token
  | 0, _ => []
  | _, [] => []
  | fuel + 1, c :: r =>
    let word (rest : String) (t : Token) : List Token :=
      match Text.after? rest.toList r with
      | some r => t :: tokens fuel r
      | none => [.junk]
    match c with
    | ' ' | '\n' | '\t' | '\r' => tokens fuel r
    | '[' => .openList :: tokens fuel r
    | ']' => .closeList :: tokens fuel r
    | '{' => .openObject :: tokens fuel r
    | '}' => .closeObject :: tokens fuel r
    | ',' => .comma :: tokens fuel r
    | ':' => .colon :: tokens fuel r
    | 'n' => word "ull" .null
    | 't' => word "rue" (.bool true)
    | 'f' => word "alse" (.bool false)
    | '"' =>
      match scanString [] true r with
      | some (s, r) => .str s :: tokens fuel r
      | none => [.junk]
    | _ =>
      match scanNumber (c :: r) with
      | some (n, r) => .num n :: tokens fuel r
      | none => [.junk]

inductive Frame where
  | items (done : List Doc)
  | members (done : List (Option String × Doc)) (key : Option (Option String))

inductive Expected where
  | value
  | valueOrClose
  | keyOrClose
  | key
  | colon
  | commaOrClose
  | nothing
  deriving DecidableEq, Repr

structure Reading where
  stack : List Frame
  expected : Expected
  result : Doc

namespace Reading

def start : Reading := ⟨[], .value, .broken⟩

def push (r : Reading) (d : Doc) : Reading :=
  match r.stack with
  | [] => ⟨[], .nothing, d⟩
  | .items done :: st => ⟨.items (d :: done) :: st, .commaOrClose, .broken⟩
  | .members done key :: st => ⟨.members ((key.join, d) :: done) none :: st, .commaOrClose, .broken⟩

/-- Closes the innermost container; one nested deeper than `limit` has no value. -/
def close (limit : Nat) (r : Reading) (st : List Frame) (d : Doc) : Reading :=
  ({ r with stack := st } : Reading).push (if r.stack.length > limit then .unreadable else d)

def abandon : List Frame → Doc → Doc
  | [], d => d
  | .items done :: st, d => abandon st (.arr (done.reverse ++ [d]))
  | .members done key :: st, d => abandon st (.obj (done.reverse ++ [(key.join, d)]))

def scalar? : Token → Option Doc
  | .null => some .null
  | .bool b => some (.bool b)
  | .num (some n) => some (.num n)
  | .num none => some .unreadable
  | .str (some s) => some (.str s)
  | .str none => some .unreadable
  | _ => none

def step? (limit : Nat) (r : Reading) (t : Token) : Option Reading :=
  match r.expected, t with
  | .value, .openList => some { r with stack := .items [] :: r.stack, expected := .valueOrClose }
  | .value, .openObject => some { r with stack := .members [] none :: r.stack, expected := .keyOrClose }
  | .value, t => (scalar? t).map r.push
  | .valueOrClose, .closeList =>
    match r.stack with
    | .items done :: st => some (r.close limit st (.arr done.reverse))
    | _ => none
  | .valueOrClose, .openList => some { r with stack := .items [] :: r.stack, expected := .valueOrClose }
  | .valueOrClose, .openObject =>
    some { r with stack := .members [] none :: r.stack, expected := .keyOrClose }
  | .valueOrClose, t => (scalar? t).map r.push
  | .keyOrClose, .closeObject =>
    match r.stack with
    | .members done _ :: st => some (r.close limit st (.obj done.reverse))
    | _ => none
  | .keyOrClose, .str s | .key, .str s =>
    match r.stack with
    | .members done _ :: st => some { r with stack := .members done (some s) :: st, expected := .colon }
    | _ => none
  | .colon, .colon => some { r with expected := .value }
  | .commaOrClose, .comma =>
    match r.stack with
    | .items _ :: _ => some { r with expected := .value }
    | .members _ _ :: _ => some { r with expected := .key }
    | [] => none
  | .commaOrClose, .closeList =>
    match r.stack with
    | .items done :: st => some (r.close limit st (.arr done.reverse))
    | _ => none
  | .commaOrClose, .closeObject =>
    match r.stack with
    | .members done _ :: st => some (r.close limit st (.obj done.reverse))
    | _ => none
  | _, _ => none

def run (limit : Nat) (r : Reading) : List Token → Doc × Bool
  | [] => if r.expected = .nothing then (r.result, true) else (abandon r.stack .broken, true)
  | t :: ts =>
    if r.expected = .nothing then (r.result, false)
    else
      match r.step? limit t with
      | some r => run limit r ts
      | none => (abandon r.stack .broken, true)

end Reading

def depthLimit : Nat := 127

def readWithin (limit : Nat) (s : String) : Doc × Bool :=
  let cs := Text.chars s
  Reading.start.run limit (tokens cs.length cs)

def read (s : String) : Doc × Bool := readWithin depthLimit s

def parseWithin? (limit : Nat) (s : String) : Option Json :=
  match readWithin limit s with
  | (d, true) => d.value?
  | (_, false) => none

def parse? (s : String) : Option Json := parseWithin? depthLimit s

end Outreach.Json
