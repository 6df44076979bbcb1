import Outreach.Json.Basic

/-! Changing a value throughout: its texts, and which members it has. -/
namespace Outreach.Json

mutual

def mapTexts (f : String → String) : Json → Json
  | .str s => .str (f s)
  | .arr xs => .arr (mapTextsItems f xs)
  | .obj ms => .obj (mapTextsMembers f ms)
  | j => j

def mapTextsItems (f : String → String) : List Json → List Json
  | [] => []
  | j :: r => mapTexts f j :: mapTextsItems f r

def mapTextsMembers (f : String → String) : List (String × Json) → List (String × Json)
  | [] => []
  | (k, j) :: r => (f k, mapTexts f j) :: mapTextsMembers f r

end

mutual

def without (p : String → Json → Bool) : Json → Json
  | .arr xs => .arr (withoutItems p xs)
  | .obj ms => .obj (withoutMembers p ms)
  | j => j

def withoutItems (p : String → Json → Bool) : List Json → List Json
  | [] => []
  | j :: r => without p j :: withoutItems p r

def withoutMembers (p : String → Json → Bool) : List (String × Json) → List (String × Json)
  | [] => []
  | (k, j) :: r => if p k j then withoutMembers p r else (k, without p j) :: withoutMembers p r

end

end Outreach.Json
