import Outreach.Time.ZoneTable
import Outreach.Time.Instant

/-! Local time in a named zone. -/
namespace Outreach

structure Zone where
  name : String
  base : Int
  changes : List (Int × Int)
  deriving DecidableEq, Repr

namespace Zone

def utc : Zone := ⟨"UTC", 0, []⟩

def named? (name : String) : Option Zone :=
  (Time.zoneGroups.find? (·.names.contains name)).map fun g => ⟨name, g.base, g.changes⟩

def offsetAt (z : Zone) (t : Instant) : Int :=
  z.changes.foldl (fun o c => if c.1 ≤ t.seconds then c.2 else o) z.base

end Zone

structure WallClock where
  weekday : Time.Weekday
  minute : Nat
  deriving DecidableEq, Repr

def WallClock.text (w : WallClock) : String :=
  Text.padded 2 (w.minute / 60) ++ ":" ++ Text.padded 2 (w.minute % 60)

def Instant.inZone (t : Instant) (z : Zone) : WallClock :=
  let s := t.seconds + z.offsetAt t
  ⟨.ofDays (s.fdiv 86400), ((s - s.fdiv 86400 * 86400) / 60).toNat⟩

end Outreach
