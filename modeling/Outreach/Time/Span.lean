import Outreach.Text.Basic

/-! Lengths of time in whole milliseconds, as messages show them. -/
namespace Outreach.Time

def spanText (ms : Nat) : String :=
  if 1000 ≤ ms then
    let fraction := ((Text.padded 3 (ms % 1000)).toList.reverse.dropWhile (· == '0')).reverse
    let tail := if fraction.isEmpty then "" else "." ++ String.ofList fraction
    Text.decimal (ms / 1000) ++ tail ++ "s"
  else if 0 < ms then Text.decimal ms ++ "ms"
  else "0ns"

end Outreach.Time
