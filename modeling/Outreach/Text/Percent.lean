import Outreach.Text.Bytes

/-! Percent signs that stand for bytes. -/
namespace Outreach.Text

/-- Bytes after the resolution of two-digit codes that follow a percent sign; a sign without a code stands
for itself. -/
def percentDecoded : List UInt8 → List UInt8
  | [] => []
  | [a] => [a]
  | [a, b] => [a, b]
  | a :: b :: c :: r =>
    match a == 37, hexValue? (Char.ofNat b.toNat), hexValue? (Char.ofNat c.toNat) with
    | true, some x, some y => UInt8.ofNat (16 * x + y) :: percentDecoded r
    | _, _, _ => a :: percentDecoded (b :: c :: r)

end Outreach.Text
