import Outreach.Text.Basic

/-! Texts of bytes, which need not be UTF-8. -/
namespace Outreach.Text

def ofBytes? (bs : List UInt8) : Option String := String.fromUTF8? (ByteArray.mk bs.toArray)

/-- A character whose first bytes have been read: its value so far, how many bytes are missing, and the
bounds of the next one. -/
structure Started where
  value : Nat
  missing : Nat
  low : Nat
  high : Nat

def started? (b : Nat) : Option Started :=
  if 0xC2 ≤ b && b ≤ 0xDF then some ⟨b - 0xC0, 1, 0x80, 0xBF⟩
  else if 0xE0 ≤ b && b ≤ 0xEF then
    some ⟨b - 0xE0, 2, if b == 0xE0 then 0xA0 else 0x80, if b == 0xED then 0x9F else 0xBF⟩
  else if 0xF0 ≤ b && b ≤ 0xF4 then
    some ⟨b - 0xF0, 3, if b == 0xF0 then 0x90 else 0x80, if b == 0xF4 then 0x8F else 0xBF⟩
  else none

section
variable (standIn : Char)

def lossyStart (b : Nat) : Option Started × List Char :=
  if b < 0x80 then (none, [Char.ofNat b])
  else match started? b with
    | some s => (some s, [])
    | none => (none, [standIn])

/-- Each longest broken beginning of a character becomes one stand-in. -/
def lossyFrom : Option Started → List UInt8 → List Char
  | none, [] => []
  | some _, [] => [standIn]
  | none, b :: r =>
    let (next, cs) := lossyStart standIn b.toNat
    cs ++ lossyFrom next r
  | some s, b :: r =>
    let n := b.toNat
    if s.low ≤ n && n ≤ s.high then
      let value := 64 * s.value + (n - 0x80)
      if s.missing ≤ 1 then Char.ofNat value :: lossyFrom none r
      else lossyFrom (some ⟨value, s.missing - 1, 0x80, 0xBF⟩) r
    else
      let (next, cs) := lossyStart standIn n
      standIn :: cs ++ lossyFrom next r

end

def replacement : Char := Char.ofNat 0xFFFD

def ofBytesLossy (bs : List UInt8) : String := String.ofList (lossyFrom replacement none bs)

def chars (s : String) : List Char :=
  -- The same as `toList`, which looks each byte up by its place and so evaluates in quadratic time.
  lossyFrom replacement none s.toByteArray.data.toList

end Outreach.Text
