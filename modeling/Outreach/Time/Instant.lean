import Outreach.Time.Calendar
import Outreach.Text.Basic

/-! Instants to the nanosecond, and their RFC 3339 texts. -/
namespace Outreach

/-- Seconds since 1970 in universal time and nanoseconds within the second; a leap second counts
as part of the second before it, with nanoseconds from `10 ^ 9` on. -/
structure Instant where
  seconds : Int
  nanos : Nat
  deriving DecidableEq, Repr

namespace Instant
open Time

def le (a b : Instant) : Bool := a.seconds < b.seconds || (a.seconds == b.seconds && a.nanos ≤ b.nanos)

def minSeconds : Int := (Date.toDays ⟨minYear, 1, 1⟩) * 86400

def maxSeconds : Int := (Date.toDays ⟨maxYear, 12, 31⟩) * 86400 + 86399

def inRange? (t : Instant) : Option Instant :=
  if minSeconds ≤ t.seconds ∧ t.seconds ≤ maxSeconds then some t else none

/-- Whole seconds later, or none past the range; leaving a leap second forward counts it as the
second after. -/
def addSeconds? (t : Instant) (s : Int) : Option Instant :=
  let t := if t.nanos < 1000000000 || s == 0 then t
    else if 0 < s then { t with nanos := t.nanos - 1000000000 }
    else ⟨t.seconds + 1, t.nanos - 1000000000⟩
  inRange? { t with seconds := t.seconds + s }

def date (t : Instant) : Date := Date.ofDays (t.seconds.fdiv 86400)

def secondOfDay (t : Instant) : Nat := (t.seconds - t.seconds.fdiv 86400 * 86400).toNat

def yearText (y : Int) : String :=
  if 0 ≤ y ∧ y ≤ 9999 then Text.padded 4 y.toNat
  else if y < 0 then "-" ++ Text.padded 4 y.natAbs
  else "+" ++ Text.padded 4 y.natAbs

def secondText (t : Instant) : String :=
  let d := t.date
  let s := t.secondOfDay
  let sec := s % 60 + t.nanos / 1000000000
  yearText d.year ++ "-" ++ Text.padded 2 d.month ++ "-" ++ Text.padded 2 d.day ++ "T" ++
    Text.padded 2 (s / 3600) ++ ":" ++ Text.padded 2 (s / 60 % 60) ++ ":" ++ Text.padded 2 sec

/-- As few of no, three, six or nine fraction digits as hold the instant. -/
def text (t : Instant) : String :=
  let n := t.nanos % 1000000000
  let fraction :=
    if n == 0 then ""
    else if n % 1000000 == 0 then "." ++ Text.padded 3 (n / 1000000)
    else if n % 1000 == 0 then "." ++ Text.padded 6 (n / 1000)
    else "." ++ Text.padded 9 n
  t.secondText ++ fraction ++ "Z"

def microsText (t : Instant) : String :=
  t.secondText ++ "." ++ Text.padded 6 (t.nanos % 1000000000 / 1000) ++ "Z"

structure Written where
  year : Int
  month : Nat
  day : Nat
  hour : Nat
  minute : Nat
  second : Nat
  nanos : Nat
  offset : Int

def Written.instant? (w : Written) : Option Instant := do
  let d ← Date.of? w.year w.month w.day
  if w.hour < 24 ∧ w.minute < 60 ∧ w.second ≤ 60 ∧ -86400 < w.offset ∧ w.offset < 86400 then
    let (s, extra) := if w.second = 60 then (59, 1000000000) else (w.second, 0)
    inRange? ⟨d.toDays * 86400 + (w.hour * 3600 + w.minute * 60 + s : Nat) - w.offset, w.nanos + extra⟩
  else none

def number? (lo hi : Nat) (s : List Char) : Option (Nat × List Char) :=
  let ds := (s.take hi).takeWhile Char.isDigit
  if lo ≤ ds.length then some (Text.digitsValue ds, s.drop ds.length) else none

def literal? (c : Char) : List Char → Option (List Char)
  | d :: r => if d = c then some r else none
  | [] => none

def nanos? : List Char → Option (Nat × List Char)
  | '.' :: r => do
    let (n, rest) ← number? 1 9 r
    return (n * Nat.pow 10 (9 - (r.length - rest.length)), rest.dropWhile Char.isDigit)
  | s => some (0, s)

def offset? (separator : List Char → Option (List Char)) : List Char → Option (Int × List Char)
  | 'Z' :: r | 'z' :: r => some (0, r)
  | c :: r => do
    let negative ← if c = '+' then some false else if c = '-' || c.toNat = 0x2212 then some true else none
    let (h, r) ← number? 2 2 r
    let r ← separator r
    let (m, r) ← number? 2 2 r
    if m < 60 then
      let s : Int := (h * 3600 + m * 60 : Nat)
      return (if negative then -s else s, r)
    else none
  | [] => none

def dateTimeSeparator? : List Char → Option (List Char)
  | 'T' :: r | 't' :: r | ' ' :: r => some r
  | _ => none

def ofText? (s : String) : Option Instant := do
  let (year, s) ← number? 4 4 s.toList
  let s ← literal? '-' s
  let (month, s) ← number? 2 2 s
  let s ← literal? '-' s
  let (day, s) ← number? 2 2 s
  let s ← dateTimeSeparator? s
  let (hour, s) ← number? 2 2 s
  let s ← literal? ':' s
  let (minute, s) ← number? 2 2 s
  let s ← literal? ':' s
  let (second, s) ← number? 2 2 s
  let (nanos, s) ← nanos? s
  let (offset, s) ← offset? (literal? ':') s
  if s.isEmpty then Written.instant? ⟨year, month, day, hour, minute, second, nanos, offset⟩ else none

def loose? (width : Nat) (s : List Char) : Option (Nat × List Char) := number? 1 width (Text.trimStart s)

def looseYear? (s : List Char) : Option (Int × List Char) :=
  match Text.trimStart s with
  | '-' :: r => (number? 1 r.length r).map fun (n, r) => (-(n : Int), r)
  | '+' :: r => (number? 1 r.length r).map fun (n, r) => ((n : Int), r)
  | r => (number? 1 4 r).map fun (n, r) => ((n : Int), r)

def looseOffset? (s : List Char) : Option (Int × List Char) :=
  let s := Text.trimStart s
  if (s.take 3).map Char.toUpper = ['U', 'T', 'C'] then some (0, s.drop 3)
  else offset? (fun r => some (r.dropWhile fun c => c = ':' || Text.isBlank c)) s

/-- The lenient form that documents may use: short numbers, signed years, white space between the parts. -/
def ofLooseText? (s : String) : Option Instant := do
  let (year, s) ← looseYear? s.toList
  let s ← literal? '-' (Text.trimStart s)
  let (month, s) ← loose? 2 s
  let s ← literal? '-' (Text.trimStart s)
  let (day, s) ← loose? 2 s
  let s ← dateTimeSeparator? s
  let (hour, s) ← loose? 2 s
  let s ← literal? ':' (Text.trimStart s)
  let (minute, s) ← loose? 2 s
  let s ← literal? ':' (Text.trimStart s)
  let (second, s) ← loose? 2 s
  let (nanos, s) ← nanos? s
  let (offset, s) ← looseOffset? s
  if (Text.trimStart s).isEmpty then
    Written.instant? ⟨year, month, day, hour, minute, second, nanos, offset⟩
  else none

end Instant
end Outreach
