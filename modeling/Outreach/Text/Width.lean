import Outreach.Text.Lower
import Outreach.Text.WidthTable

/-! How many columns a text takes on a terminal. -/
namespace Outreach.Text

def charColumns (c : Char) : Nat :=
  if c.toNat < 0x300 then if c.toNat == 0xAD then 0 else 1
  else if inRanges zeroWidthRanges c then 0
  else if inRanges wideRanges c then 2
  else 1

def isJoiner (c : Char) : Bool := c.toNat == 0x200D

def isPictureSelector (c : Char) : Bool := c.toNat == 0xFE0F

def isSkinTone (c : Char) : Bool := 0x1F3FB ≤ c.toNat && c.toNat ≤ 0x1F3FF

def mayBePicture (c : Char) : Bool := c.toNat == 0xA9 || c.toNat == 0xAE || 0x2000 ≤ c.toNat

/-- `before` is the last character with columns of its own and whether it is a picture by now; `joined` tells
that a joiner stands between. -/
def columnsFrom (before : Option (Char × Bool)) (joined : Bool) : List Char → Nat
  | [] => 0
  | c :: r =>
    let afterPicture := before.any (·.2)
    if isJoiner c then columnsFrom before afterPicture r
    else if isPictureSelector c then
      match before with
      | some (b, false) =>
        if mayBePicture b then 1 + columnsFrom (some (b, true)) false r else columnsFrom before false r
      | _ => columnsFrom before false r
    else
      let n := charColumns c
      if n == 0 then columnsFrom before false r
      else if n == 2 && afterPicture && (joined || isSkinTone c) then columnsFrom (some (c, true)) false r
      else n + columnsFrom (some (c, n == 2)) false r

def columns (s : List Char) : Nat := columnsFrom none false s

end Outreach.Text
