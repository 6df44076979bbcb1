import Outreach.Engine.Intake
import Outreach.Engine.Management
import Outreach.Proofs.Automation.Written

/-! Graphs that may be stored, and that what is read from a stored graph may be stored again: nodes come back under
their ids and with their kinds, and edges as they were. -/
namespace Outreach

namespace Decode
open Json
variable {α β : Type} {dec : Decoder α} {encode : α → Json} {as bs : List α}

/-- What is kept of each item is kept of the list that is read from its text. -/
theorem map_of_ofText {g : α → β} (h : Decode.ofText (Decode.list dec) (Json.arr (as.map encode)).text = .ok bs)
    (hg : ∀ a ∈ as, ∀ b, dec .text (docAt depthLimit 1 (encode a)) = .ok b → g b = g a) : bs.map g = as.map g := by
  simp only [Decode.ofText, Json.read, readWithin_text, docAt_list, Decode.list, listFrom_eq_mapM] at h
  obtain ⟨bs', hread, hbs⟩ := bind_eq_ok.mp h
  cases hbs
  have hitems : as.mapM (fun a => dec .text (docAt depthLimit 1 (encode a))) = .ok bs :=
    mapM_eq_ok.mpr (List.forall₂_map_left_iff.mp (mapM_eq_ok.mp hread))
  exact map_of_mapM hitems hg

end Decode

namespace Automation
variable {a b : Automation} {nodes : List Node} {seen : List String}

/-- A graph may be stored: nodes have ids that are not empty and differ, edges lead from node to node, and an active
automation has a trigger to start from. -/
structure Valid (a : Automation) : Prop where
  named : ∀ n ∈ a.nodes, n.id ≠ ""
  distinct : (a.nodes.map (·.id)).Nodup
  joined : ∀ e ∈ a.edges, e.source ∈ a.nodes.map (·.id) ∧ e.target ∈ a.nodes.map (·.id)
  triggered : a.status = .active → ∃ n ∈ a.nodes, n.kind = .trigger

theorem nodeFault?_eq_none_iff : nodeFault? seen nodes = none ↔
    (∀ n ∈ nodes, n.id ≠ "" ∧ n.id ∉ seen) ∧ (nodes.map (·.id)).Nodup := by
  induction nodes generalizing seen with
  | nil => simp [nodeFault?]
  | cons n nodes ih =>
    rw [nodeFault?]
    split
    · rename_i hempty
      simp [String.isEmpty_iff.mp hempty]
    · rename_i hname
      rw [String.isEmpty_iff] at hname
      split
      · rename_i hseen
        simp [List.contains_iff_mem.mp hseen]
      · rename_i hfresh
        rw [List.contains_iff_mem] at hfresh
        rw [ih, List.map_cons, List.nodup_cons, List.forall_mem_cons]
        constructor
        · rintro ⟨hnodes, hnodup⟩
          refine ⟨⟨⟨hname, hfresh⟩, fun m hm => ⟨(hnodes m hm).1, fun hin => ?_⟩⟩, fun hin => ?_, hnodup⟩
          · exact (hnodes m hm).2 (List.mem_cons_of_mem _ hin)
          · obtain ⟨m, hm, hid⟩ := List.mem_map.mp hin
            exact (hnodes m hm).2 (hid ▸ List.mem_cons_self)
        · rintro ⟨⟨-, hnodes⟩, hnot, hnodup⟩
          refine ⟨fun m hm => ⟨(hnodes m hm).1, fun hin => ?_⟩, hnodup⟩
          obtain hid | hin := List.mem_cons.mp hin
          · exact hnot (hid ▸ List.mem_map_of_mem hm)
          · exact (hnodes m hm).2 hin

theorem edgeFault?_eq_none_iff {ids : List String} {edges : List Edge} :
    edgeFault? ids edges = none ↔ ∀ e ∈ edges, e.source ∈ ids ∧ e.target ∈ ids := by
  rw [edgeFault?, List.findSome?_eq_none_iff]
  refine forall₂_congr fun e _ => ?_
  by_cases hsource : e.source ∈ ids <;> by_cases htarget : e.target ∈ ids <;> simp [hsource, htarget]

theorem triggerNode?_isNone : a.triggerNode?.isNone = true ↔ ¬ ∃ n ∈ a.nodes, n.kind = .trigger := by
  simp [triggerNode?]

/-- The check lets exactly the graphs pass that may be stored. -/
theorem fault?_eq_none_iff : a.fault? = none ↔ a.Valid := by
  have htrigger : (if (a.status == .active && a.triggerNode?.isNone) = true then some GraphFault.noTrigger else none) =
      none ↔ (a.status = .active → ∃ n ∈ a.nodes, n.kind = .trigger) := by
    rw [ite_eq_right_iff]
    simp only [Bool.and_eq_true, beq_iff_eq, triggerNode?_isNone, reduceCtorEq, imp_false, not_and, not_not]
  simp only [fault?, Option.orElse_eq_orElse, Option.orElse_eq_or, Option.or_eq_none_iff, nodeFault?_eq_none_iff, edgeFault?_eq_none_iff, htrigger]
  constructor
  · rintro ⟨⟨hnodes, hnodup⟩, hedges, hstart⟩
    exact ⟨fun n hn => (hnodes n hn).1, hnodup, hedges, hstart⟩
  · intro h
    exact ⟨⟨fun n hn => ⟨h.named n hn, List.not_mem_nil⟩, h.distinct⟩, h.joined, h.triggered⟩

def outline (a : Automation) : List (String × NodeKind) := a.nodes.map fun n => (n.id, n.kind)

theorem ids_eq (a : Automation) : a.nodes.map (·.id) = a.outline.map (·.1) := by simp [outline]

theorem exists_trigger_iff : (∃ n ∈ a.nodes, n.kind = .trigger) ↔ .trigger ∈ a.outline.map (·.2) := by
  simp [outline]

/-- Only the outline of the nodes counts, with the edges and the status. -/
theorem Valid.of_outline (h : a.Valid) (hnodes : b.outline = a.outline) (hedges : b.edges = a.edges)
    (hstatus : b.status = a.status) : b.Valid := by
  have hids : b.nodes.map (·.id) = a.nodes.map (·.id) := by rw [ids_eq, ids_eq, hnodes]
  constructor
  · intro n hn
    have hid : n.id ∈ a.nodes.map (·.id) := hids ▸ List.mem_map_of_mem hn
    obtain ⟨m, hm, hsame⟩ := List.mem_map.mp hid
    exact hsame ▸ h.named m hm
  · exact hids ▸ h.distinct
  · rw [hedges, hids]
    exact h.joined
  · rw [hstatus, exists_trigger_iff, hnodes, ← exists_trigger_iff]
    exact h.triggered

/-- The status may be another one that asks for no trigger, or for one that is there. -/
theorem Valid.withStatus (h : a.Valid) {status : AutomationStatus}
    (hstart : status = .active → ∃ n ∈ a.nodes, n.kind = .trigger) : ({ a with status := status } : Automation).Valid :=
  ⟨h.named, h.distinct, h.joined, hstart⟩

theorem outline_captureIn (webhookId : String) (body : Json) (nodes : List Node) :
    (captureIn webhookId body nodes).map (fun n => (n.id, n.kind)) = nodes.map fun n => (n.id, n.kind) := by
  induction nodes with
  | nil => rfl
  | cons n nodes ih =>
    rw [captureIn]
    split
    · rename_i hdata
      split
      · simp only [List.map_cons, Node.kind, hdata, NodeData.kind]
      · rw [List.map_cons, List.map_cons, ih]
    · rw [List.map_cons, List.map_cons, ih]

theorem Valid.captureSample (h : a.Valid) (webhookId : String) (body : Json) : (a.captureSample webhookId body).Valid :=
  h.of_outline (outline_captureIn webhookId body a.nodes) rfl rfl

end Automation

theorem Management.checkGraph_eq_pure_iff {a : Automation} : checkGraph a = pure () ↔ a.Valid := by
  rw [← Automation.fault?_eq_none_iff, checkGraph]
  cases a.fault? with
  | none => simp only
  | some f =>
    constructor
    · intro h
      cases (Program.done.inj h : Except.error _ = Except.ok ())
    · intro h
      cases h

theorem outline_of_text {nodes nodes' : List Node}
    (h : Decode.ofText (Decode.list Node.decode) (Json.arr (nodes.map Node.encode)).text = .ok nodes') :
    nodes'.map (fun n => (n.id, n.kind)) = nodes.map fun n => (n.id, n.kind) :=
  Decode.map_of_ofText h fun n _ m hm => by
    obtain ⟨hid, hkind⟩ := Node.of_decode_encode hm
    rw [hid, hkind]

end Outreach
