import Outreach.Text.Basic

/-! Which six-field cron expressions name a schedule: seconds, minutes, hours, days of the month, months
and days of the week. -/
namespace Outreach.Cron
open Text

structure Part where
  lo : Nat
  hi : Nat
  names : List (String × Nat)
  isDayOfMonth : Bool
  isDayOfWeek : Bool

def plain (lo hi : Nat) : Part := ⟨lo, hi, [], false, false⟩

def monthNames : List (String × Nat) :=
  [("jan", 1), ("feb", 2), ("mar", 3), ("apr", 4), ("may", 5), ("jun", 6), ("jul", 7), ("aug", 8),
    ("sep", 9), ("oct", 10), ("nov", 11), ("dec", 12)]

def dayNames : List (String × Nat) :=
  [("sun", 0), ("mon", 1), ("tue", 2), ("wed", 3), ("thu", 4), ("fri", 5), ("sat", 6)]

def parts : List Part :=
  [plain 0 59, plain 0 59, plain 0 23, ⟨1, 31, [], true, false⟩, ⟨1, 12, monthNames, false, false⟩,
    ⟨0, 7, dayNames, false, true⟩]

def Part.value? (p : Part) (s : List Char) : Option Nat :=
  let n := match p.names.find? fun n => n.1.toList == s.map Char.toLower with
    | some n => some n.2
    | none => digits? s
  n.filter fun n => p.lo ≤ n && n ≤ p.hi

def Part.spanIsValid (p : Part) (s : List Char) : Bool :=
  if s == ['*'] then true
  else
    match cutAt '-' s with
    | some (a, b) =>
      match p.value? a, p.value? b with
      | some a, some b => a ≤ b
      | _, _ => false
    | none => (p.value? s).isSome

/-- The last day, the nearest weekday, or the n-th or last weekday of a month. -/
def Part.markIsValid (p : Part) (s : List Char) : Bool :=
  let up := s.map Char.toUpper
  (p.isDayOfMonth && (up == ['L'] || (up.getLast? == some 'W' && (p.value? s.dropLast).isSome))) ||
    (p.isDayOfWeek &&
      ((up.getLast? == some 'L' && (p.value? s.dropLast).isSome) ||
        match cutAt '#' s with
        | some (d, n) =>
          (p.value? d).isSome && (n.map Char.toUpper == ['L'] || (digits? n).any fun n => 1 ≤ n && n ≤ 5)
        | none => false)) ||
    ((p.isDayOfMonth || p.isDayOfWeek) && s == ['?'])

def Part.itemIsValid (p : Part) (s : List Char) : Bool :=
  match cutAt '/' s with
  | some (span, step) => p.spanIsValid span && (natural? 256 step).any (0 < ·)
  | none => p.spanIsValid s || p.markIsValid s

def isValid (expression : String) : Bool :=
  let fields := words expression.toList
  fields.length == parts.length &&
    (parts.zip fields).all fun (p, f) => (splitAt ',' f).all p.itemIsValid

end Outreach.Cron
