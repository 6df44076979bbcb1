import Outreach.Json.Decode

/-! JSON in bytes. Beside its strings all of it is ASCII, and a string that is no UTF-8 can be skipped but has no value. -/
namespace Outreach
namespace Json

/-- The tokens of bytes that are no UTF-8. They are read with one stand-in for what is broken and with another: only
strings in which something is broken differ. -/
def brokenTokens (bs : List UInt8) : List Token :=
  let under (standIn : Char) : List Token :=
    let cs := Text.lossyFrom standIn none bs
    tokens cs.length cs
  List.zipWith (fun s t => if s = t then s else .str none) (under (Char.ofNat 0xFFFC)) (under (Char.ofNat 0xFFFD))

def readBytes (bs : List UInt8) : Doc × Bool :=
  match Text.ofBytes? bs with
  | some s => read s
  | none => Reading.start.run depthLimit (brokenTokens bs)

/-- A value holds all of its strings, so that there is none of bytes that are no UTF-8. -/
def parseBytes? (bs : List UInt8) : Option Json := (Text.ofBytes? bs).bind parse?

end Json

def Decode.ofBytes {α : Type} (dec : Decoder α) (bs : List UInt8) : Except DecodeError α := do
  let (d, ended) := Json.readBytes bs
  let a ← dec .text d
  if ended then return a else throw .malformed

end Outreach
