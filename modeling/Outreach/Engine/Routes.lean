import Outreach.Automation.Basic

/-! The edges of a graph, sorted into the successors of each node. -/
namespace Outreach

structure BranchTargets where
  onTrue : Option String
  onFalse : Option String
  deriving DecidableEq, Repr

structure Routes where
  straight : Keyed (List String)
  conditional : Keyed BranchTargets
  randomized : Keyed (List String)

namespace Routes

def empty : Routes := ⟨[], [], []⟩

def append (m : Keyed (List String)) (e : Edge) : Keyed (List String) :=
  Keyed.put e.source ((Keyed.get? m e.source).getD [] ++ [e.target]) m

def branches (r : Routes) (node : String) : BranchTargets :=
  (Keyed.get? r.conditional node).getD ⟨none, none⟩

/-- Of several `true` edges of a node, or several `false` ones, the last stays. -/
def add (r : Routes) (e : Edge) : Routes :=
  match e.sourceHandle with
  | some h =>
    if h = "true" then
      { r with conditional := Keyed.put e.source { r.branches e.source with onTrue := some e.target } r.conditional }
    else if h = "false" then
      { r with conditional := Keyed.put e.source { r.branches e.source with onFalse := some e.target } r.conditional }
    else if Text.startsWith h "branch-" then { r with randomized := append r.randomized e }
    else { r with straight := append r.straight e }
  | none => { r with straight := append r.straight e }

def classify (edges : List Edge) : Routes := edges.foldl add empty

def next? (r : Routes) (node : String) : Option String := ((Keyed.get? r.straight node).getD []).head?

def branch? (r : Routes) (node : String) (outcome : Bool) : Option String :=
  if outcome then (r.branches node).onTrue else (r.branches node).onFalse

def randomBranches (r : Routes) (node : String) : List String := (Keyed.get? r.randomized node).getD []

end Routes
end Outreach
