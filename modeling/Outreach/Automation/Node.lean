import Outreach.Automation.Trigger
import Outreach.Automation.Action

/-! Nodes of an automation graph. A node's data names the same type as its `subType`. -/
namespace Outreach
open Decode

structure Position where
  x : Binary64
  y : Binary64
  deriving DecidableEq, Repr

inductive NodeKind where
  | trigger
  | action
  deriving DecidableEq, Repr

def NodeKind.names : List (String × NodeKind) := [("trigger", .trigger), ("action", .action)]

def NodeKind.text : NodeKind → String
  | .trigger => "trigger"
  | .action => "action"

inductive NodeData where
  | trigger (t : Trigger)
  | action (a : Action)

structure Node where
  id : String
  data : NodeData
  position : Option Position

namespace NodeData

def kind : NodeData → NodeKind
  | .trigger _ => .trigger
  | .action _ => .action

def subType : NodeData → String
  | .trigger t => t.subType
  | .action a => a.subType

def encode : NodeData → Json
  | .trigger t => t.encode
  | .action a => a.encode

def decode (kind : NodeKind) : Decoder NodeData := fun o d =>
  match kind with
  | .trigger => (Trigger.decode o d).map .trigger
  | .action => (Action.decode o d).map .action

end NodeData

/-- A node as it is written, its data still untyped. -/
structure WrittenNode where
  id : String
  kind : NodeKind
  subType : String
  data : Json
  position : Option Position

namespace WrittenNode

def fields : Fields WrittenNode :=
  WrittenNode.mk <$> .required "id" string <*> .required "type" (choice NodeKind.names) <*>
    .required "subType" string <*> .withDefault "data" .null json <*>
    .withDefault "position" none
      (option (Position.mk <$> Fields.required "x" float <*> Fields.required "y" float).object)

def typedData (w : WrittenNode) : Except GraphError (List (String × Json)) :=
  let members? := match w.data with
    | .null => some []
    | .obj ms => some ms
    | _ => none
  match members? with
  | none => .error (.notAnObject w.id w.kind.text)
  | some ms =>
    match (Keyed.get? ms "type").bind Json.asString? with
    | some tag => if tag = w.subType then .ok ms else .error (.subTypeMismatch w.id w.subType tag)
    | none => .ok (Keyed.put "type" (.str w.subType) ms)

def node (w : WrittenNode) : Except GraphError Node := do
  let ms ← w.typedData
  match NodeData.decode w.kind .value (Doc.ofJson (.obj ms)) with
  | .ok data => return ⟨w.id, data, w.position⟩
  | .error e => throw (.invalidData w.id w.kind.text e)

end WrittenNode

namespace Node

def kind (n : Node) : NodeKind := n.data.kind

def subType (n : Node) : String := n.data.subType

def trigger? (n : Node) : Option Trigger :=
  match n.data with
  | .trigger t => some t
  | .action _ => none

def action? (n : Node) : Option Action :=
  match n.data with
  | .trigger _ => none
  | .action a => some a

def decode : Decoder Node := fun o d => do
  let w ← WrittenNode.fields.object o d
  match w.node with
  | .ok n => return n
  | .error e => throw (.graph e)

def encode (n : Node) : Json :=
  .obj ([("id", .str n.id), ("type", .str n.kind.text), ("subType", .str n.subType),
    ("data", n.data.encode.sorted)] ++
    match n.position with
    | none => []
    | some p => [("position", .obj [("x", .num (.float p.x)), ("y", .num (.float p.y))])])

end Node
end Outreach
