import Outreach.Proofs.Automation.Validity
import Outreach.Proofs.Database.Graphs

/-! A table of automations whose graphs may all be stored. Each way of changing the table keeps it so, as long as what is
written was checked, and a row is only made active after a trigger was seen in it. -/
namespace Outreach
open Stored

namespace AutomationRow
variable {r : AutomationRow} {a b : Automation}

/-- The row was written from a graph that may be stored. -/
def Upright (r : AutomationRow) : Prop :=
  ∃ a : Automation, a.Valid ∧ r.status = a.status.text ∧ r.nodes = listText Node.encode a.nodes ∧
    r.edges = listText Edge.encode a.edges

theorem Holds.outline {nodes : List Node} (h : r.Holds b) (hnodes : r.nodes = listText Node.encode nodes) :
    b.nodes.map (fun n => (n.id, n.kind)) = nodes.map fun n => (n.id, n.kind) := by
  have hread := h.nodes
  rw [hnodes] at hread
  unfold document at hread
  split at hread
  · rename_i htext
    cases hread
    exact outline_of_text htext
  · cases hread

theorem Upright.valid (h : r.Upright) (hread : r.read = .ok b) : b.Valid := by
  obtain ⟨a, ha, hstatus, hnodes, hedges⟩ := h
  have hb := holds_of_read hread
  refine ha.of_outline (hb.outline hnodes) ?_ ?_
  · have hsame := hb.edges
    rw [hedges, document, listText, edges_text] at hsame
    exact (Except.ok.inj hsame).symm
  · have hsame := hb.status
    rw [hstatus, AutomationStatus.parse_text] at hsame
    exact (Except.ok.inj hsame).symm

theorem upright_ofAutomation (h : a.Valid) : (ofAutomation a).Upright := ⟨a, h, rfl, rfl, rfl⟩

theorem upright_withGraphOf (r : AutomationRow) (h : a.Valid) : (r.withGraphOf a).Upright := ⟨a, h, rfl, rfl, rfl⟩

/-- Another status, with a trigger in sight if it is to be active. -/
theorem Upright.withStatus (h : r.Upright) {status : AutomationStatus}
    (hstart : status = .active → ∃ b : Automation, r.read = .ok b ∧ ∃ n ∈ b.nodes, n.kind = .trigger) :
    ({ r with status := status.text } : AutomationRow).Upright := by
  obtain ⟨a, ha, hstatus, hnodes, hedges⟩ := h
  refine ⟨{ a with status := status }, ha.withStatus fun hactive => ?_, rfl, hnodes, hedges⟩
  obtain ⟨b, hread, htrigger⟩ := hstart hactive
  have houtline : b.outline = a.outline := (holds_of_read hread).outline hnodes
  rw [Automation.exists_trigger_iff] at htrigger ⊢
  rwa [← houtline]

theorem Upright.of_uncounted {r' : AutomationRow} (h : r.Upright) (hsame : r'.uncounted = r.uncounted) : r'.Upright := by
  obtain ⟨a, ha, hstatus, hnodes, hedges⟩ := h
  have hcells : r'.status = r.status ∧ r'.nodes = r.nodes ∧ r'.edges = r.edges :=
    ⟨congrArg (·.status) hsame, congrArg (·.nodes) hsame, congrArg (·.edges) hsame⟩
  obtain ⟨hs, hn, he⟩ := hcells
  exact ⟨a, ha, hs.trans hstatus, hn.trans hnodes, he.trans hedges⟩

end AutomationRow

namespace Database
variable {db db' : Database} {a : Automation}

structure Sound (db : Database) : Prop where
  identified : db.Identified
  upright : ∀ r ∈ db.automations, r.Upright

theorem sound_of_nil (h : db.automations = []) : db.Sound := by
  constructor
  · exact ⟨by rw [h]; exact List.forall_mem_nil _, by rw [h]; exact List.nodup_nil⟩
  · rw [h]
    exact List.forall_mem_nil _

theorem Sound.valid (h : db.Sound) {r : AutomationRow} (hr : r ∈ db.automations) (hread : r.read = .ok a) : a.Valid :=
  (h.upright r hr).valid hread

theorem Sound.valid_of_listed {audience : Audience} {listed : List Automation} (h : db.Sound)
    (hlist : db.listAutomations audience = .ok listed) (ha : a ∈ listed) : a.Valid := by
  obtain ⟨r, hr, hread⟩ := exists_row hlist ha
  exact h.valid hr hread

theorem Sound.sameGraphs (h : db.Sound) (hsame : db.SameGraphs db') : db'.Sound := by
  constructor
  · have hids (db : Database) : db.automations.map (·.id) = (db.automations.map AutomationRow.uncounted).map (·.id) := by
      rw [List.map_map]
      rfl
    have hsub : db'.automations.map (·.id) = db.automations.map (·.id) := by rw [hids, hsame, ← hids]
    exact h.identified.of_ids (hsub ▸ List.Sublist.refl _)
  · intro r' hr'
    have hmem : r'.uncounted ∈ db.automations.map AutomationRow.uncounted := hsame ▸ List.mem_map_of_mem hr'
    obtain ⟨r, hr, hcells⟩ := List.mem_map.mp hmem
    exact (h.upright r hr).of_uncounted hcells.symm

theorem Sound.createAutomation (h : db.Sound) (ha : a.Valid) (hmade : db.createAutomation a = .ok db') : db'.Sound := by
  refine ⟨h.identified.createAutomation hmade, ?_⟩
  unfold Database.createAutomation at hmade
  split at hmade
  · cases hmade
  · cases hmade
    exact List.forall_mem_append.mpr ⟨h.upright,
      List.forall_mem_singleton.mpr (AutomationRow.upright_ofAutomation ha)⟩

theorem Sound.updateAutomation (h : db.Sound) (ha : a.Valid) (hupdate : db.updateAutomation a = .ok db') :
    db'.Sound := by
  refine ⟨h.identified.updateAutomation hupdate, ?_⟩
  unfold Database.updateAutomation at hupdate
  split at hupdate
  · rename_i rows hrows
    cases hupdate
    have hrows : db.automations.map _ = rows := congrArg Prod.snd hrows
    rw [← hrows]
    intro r' hr'
    obtain ⟨r, hr, rfl⟩ := List.mem_map.mp hr'
    split
    · exact AutomationRow.upright_withGraphOf r ha
    · exact h.upright r hr
  · cases hupdate

theorem Sound.setStatus (h : db.Sound) {id : Uuid} {status : AutomationStatus}
    (hstart : status = .active → ∃ b, db.automation? id = .ok (some b) ∧ ∃ n ∈ b.nodes, n.kind = .trigger) :
    (db.setStatus id status).2.Sound := by
  refine ⟨h.identified.change _ fun _ => rfl, fun r' hr' => ?_⟩
  obtain ⟨r, hr, rfl⟩ := List.mem_map.mp hr'
  dsimp only
  split
  · rename_i hid
    refine (h.upright r hr).withStatus fun hactive => ?_
    obtain ⟨b, hget, htrigger⟩ := hstart hactive
    obtain ⟨r₀, hfind, hread⟩ := automation?_eq_some.mp hget
    have hown := h.identified.find? hr
    rw [beq_iff_eq.mp hid, hfind, Option.some.injEq] at hown
    exact ⟨b, hown ▸ hread, htrigger⟩
  · exact h.upright r hr

theorem Sound.deleteAutomation (h : db.Sound) (id : Uuid) : (db.deleteAutomation id).2.Sound :=
  ⟨h.identified.of_ids (List.filter_sublist.map _), fun r hr => h.upright r (List.mem_of_mem_filter hr)⟩

end Database
end Outreach
