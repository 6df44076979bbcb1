/-! Association lists kept in ascending order of their text keys. -/
namespace Outreach

abbrev Keyed (α : Type) := List (String × α)

namespace Keyed
variable {α : Type}

def get? (m : Keyed α) (key : String) : Option α := (m.find? (·.1 == key)).map (·.2)

def put (key : String) (value : α) : Keyed α → Keyed α
  | [] => [(key, value)]
  | (k, v) :: r =>
    if key == k then (key, value) :: r
    else if key < k then (key, value) :: (k, v) :: r
    else (k, v) :: put key value r

def erase (m : Keyed α) (key : String) : Keyed α := m.filter (·.1 != key)

def ofList (ms : List (String × α)) : Keyed α := ms.foldl (fun m e => put e.1 e.2 m) []

def merge (old new : Keyed α) : Keyed α := new.foldl (fun m e => put e.1 e.2 m) old

end Keyed
end Outreach
