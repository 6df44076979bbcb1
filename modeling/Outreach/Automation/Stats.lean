import Outreach.Json.Decode

/-! Attempt counters, node by node. -/
namespace Outreach
open Decode

structure NodeStats where
  total : Nat
  success : Nat
  error : Nat
  deriving DecidableEq, Repr

namespace NodeStats

def zero : NodeStats := ⟨0, 0, 0⟩

def add (a b : NodeStats) : NodeStats := ⟨a.total + b.total, a.success + b.success, a.error + b.error⟩

def decode : Decoder NodeStats :=
  (NodeStats.mk <$> Fields.withDefault "total" 0 (nat (Nat.pow 2 64)) <*>
    Fields.withDefault "success" 0 (nat (Nat.pow 2 64)) <*> Fields.withDefault "error" 0 (nat (Nat.pow 2 64))).object

def encode (s : NodeStats) : Json :=
  .obj [("total", .nat s.total), ("success", .nat s.success), ("error", .nat s.error)]

end NodeStats

abbrev ExecutionStats := Keyed NodeStats

namespace ExecutionStats

def counters (s : ExecutionStats) (node : String) : NodeStats := (Keyed.get? s node).getD .zero

def increase (s : ExecutionStats) (node : String) (amount : NodeStats) : ExecutionStats :=
  Keyed.put node ((counters s node).add amount) s

def recordAttempt (s : ExecutionStats) (node : String) : ExecutionStats := increase s node ⟨1, 0, 0⟩

def recordSuccess (s : ExecutionStats) (node : String) : ExecutionStats := increase s node ⟨0, 1, 0⟩

def recordError (s : ExecutionStats) (node : String) : ExecutionStats := increase s node ⟨0, 0, 1⟩

def merge (s delta : ExecutionStats) : ExecutionStats :=
  delta.foldl (fun s e => increase s e.1 e.2) s

def decode : Decoder ExecutionStats := keyed NodeStats.decode

def encode (s : ExecutionStats) : Json := .obj (s.map fun e => (e.1, e.2.encode))

end ExecutionStats
end Outreach
