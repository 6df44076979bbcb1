import Outreach.Proofs.Database.Graphs
import Outreach.Proofs.Service.Samples

/-! What the users of an automation determine, apart from its counters and from what its webhooks wait for and have
seen. A capture leaves it, a save replaces it, and the status alone can be changed. -/
namespace Outreach
open Stored

def Node.blank (n : Node) : Node :=
  match n.data with
  | .trigger (.webhook id _ _) => { n with data := .trigger (.webhook id false none) }
  | _ => n

theorem Node.blank_sampled {webhookId : String} {n : Node} (h : n.Serves webhookId) (sample : Option Json) :
    (n.sampled webhookId sample).blank = n.blank := by
  obtain ⟨listening, old, hdata⟩ := h
  simp only [Node.blank, Node.sampled, hdata]

structure Json.IsSample (body : Json) : Prop where
  canonical : body.Canonical
  numbers : ∀ x ∈ body.numbers, x.reread? = some x
  depth : body.depth ≤ sampleLimit

structure Settings where
  name : String
  status : AutomationStatus
  nodes : List Node
  edges : List Edge
  allowReactivation : Bool
  blockOnOpenChat : Bool

namespace Automation
variable {a : Automation} {webhookId : String} {body : Json}

def settings (a : Automation) : Settings :=
  { name := a.name
    status := a.status
    nodes := a.nodes.map Node.blank
    edges := a.edges
    allowReactivation := a.allowReactivation
    blockOnOpenChat := a.blockOnOpenChat }

def KeepsNodes (a : Automation) : Prop := ∀ n ∈ a.nodes, n.data.Storable sampleLimit ∧ n.KeepsNumbers

/-- Once they are stored, nodes come back that are the same but for samples. -/
def Restorable (a : Automation) : Prop :=
  ∃ nodes, document "nodes" (Decode.list Node.decode) (listText Node.encode a.nodes) = .ok nodes ∧
    nodes.map Node.blank = a.nodes.map Node.blank ∧ ∀ n ∈ nodes, n.KeepsNumbers

theorem KeepsNodes.restorable (h : a.KeepsNodes) : a.Restorable := by
  refine ⟨a.nodes, ?_, rfl, fun n hn => (h n hn).2⟩
  rw [document, listText, nodes_text h]

theorem Sampled.settings {a' : Automation} {sample : Option Json} (h : a.Sampled webhookId sample a') :
    a'.settings = a.settings := by
  obtain ⟨pre, n, post, old, hnodes, -, hdata, rfl⟩ := h
  simp only [Automation.settings, hnodes, List.map_append, List.map_cons, Node.blank_sampled ⟨true, old, hdata⟩]

theorem settings_captureSample (h : a.listensOn? webhookId = some true) (body : Json) :
    (a.captureSample webhookId body).settings = a.settings := by
  obtain ⟨a', ha'⟩ := exists_sampled h (some body)
  rw [← ha'.eq_captureSample_iff.mpr rfl, ha'.settings]

theorem KeepsNodes.restorable_captureSample (h : a.KeepsNodes) (hlistens : a.listensOn? webhookId = some true)
    (hbody : body.IsSample) : (a.captureSample webhookId body).Restorable := by
  obtain ⟨a', ha'⟩ := exists_sampled hlistens body.unlessNull
  have hsame := congrArg Settings.nodes (ha'.settings.trans (settings_captureSample hlistens body).symm)
  obtain ⟨pre, n, post, hnodes, rfl, hcapture⟩ := ha'.captureSample body
  rw [KeepsNodes, hnodes] at h
  obtain ⟨hpre, hn, hpost⟩ : (∀ m ∈ pre, _) ∧ _ ∧ ∀ m ∈ post, _ := by
    simpa only [List.forall_mem_append, List.forall_mem_cons] using h
  refine ⟨pre ++ n.sampled webhookId body.unlessNull :: post, ?_, hsame, ?_⟩
  · rw [hcapture]
    exact Database.document_sampled webhookId hbody.canonical hbody.numbers (fun m hm => (h m hm).1)
      (fun m hm => (h m hm).2) hbody.depth
  · simp only [List.forall_mem_append, List.forall_mem_cons]
    exact ⟨fun m hm => (hpre m hm).2, Node.keepsNumbers_sampled hn.2 hbody.numbers, fun m hm => (hpost m hm).2⟩

end Automation

namespace Database
variable {id : Uuid} {x : Settings} {db db' : Database} {a b : Automation}

theorem automation?_uncounted (h : db.automation? id = .ok (some a)) :
    db.uncounted.automation? id = .ok (some a.uncounted) := by
  obtain ⟨r, hfind, hread⟩ := automation?_eq_some.mp h
  refine automation?_eq_some.mpr ⟨r.uncounted, ?_, AutomationRow.read_uncounted hread⟩
  exact (List.find?_map ..).trans (congrArg (Option.map _) hfind)

theorem change_uncounted {p : AutomationRow → Bool} {g : AutomationRow → AutomationRow}
    (hp : ∀ r, p r.uncounted = p r) (hg : ∀ r, (g r).uncounted = g r.uncounted) (rows : List AutomationRow) :
    change p g (rows.map AutomationRow.uncounted) =
      ((change p g rows).1, (change p g rows).2.map AutomationRow.uncounted) := by
  simp only [change, List.any_map, List.map_map]
  congr 1
  · exact congrArg rows.any (funext hp)
  · apply List.map_congr_left
    intro r _
    simp only [Function.comp_apply, hp]
    split
    · exact (hg r).symm
    · rfl

theorem updateAutomation_uncounted (h : db.updateAutomation b = .ok db') :
    db.uncounted.updateAutomation b = .ok db'.uncounted := by
  have hchange := change_uncounted (p := (·.id == b.id.text)) (g := (·.withGraphOf b)) (fun _ => rfl) (fun _ => rfl)
    db.automations
  unfold Database.updateAutomation at h ⊢
  split at h
  · rename_i rows hrows
    cases h
    rw [hrows] at hchange
    rw [uncounted, hchange]
    rfl
  · cases h

theorem setStatus_uncounted (db : Database) (id : Uuid) (status : AutomationStatus) :
    (db.setStatus id status).2.uncounted = (db.uncounted.setStatus id status).2 := by
  have hchange := change_uncounted (p := (·.id == id.text)) (g := fun r => { r with status := status.text })
    (fun _ => rfl) (fun _ => rfl) db.automations
  simp only [Database.setStatus, uncounted, hchange]

def Shows (id : Uuid) (x : Settings) (db : Database) : Prop :=
  ∃ a, db.uncounted.automation? id = .ok (some a) ∧ a.settings = x ∧ ∀ n ∈ a.nodes, n.KeepsNumbers

theorem shows_of_get (h : db.automation? id = .ok (some a)) (hnumbers : ∀ n ∈ a.nodes, n.KeepsNumbers) :
    db.Shows id a.settings :=
  ⟨a.uncounted, automation?_uncounted h, rfl, hnumbers⟩

theorem Shows.of_get (h : db.Shows id x) (hget : db.automation? id = .ok (some a)) : a.settings = x ∧ a.KeepsNodes := by
  obtain ⟨a', hget', hsettings, hnumbers⟩ := h
  cases (automation?_uncounted hget).symm.trans hget'
  obtain ⟨r, -, hread⟩ := automation?_eq_some.mp hget
  exact ⟨hsettings, fun n hn => ⟨(AutomationRow.holds_of_read hread).storable n hn, hnumbers n hn⟩⟩

theorem Shows.sameGraphs (h : db.Shows id x) (hsame : db.SameGraphs db') : db'.Shows id x := by
  obtain ⟨a, hget, hrest⟩ := h
  have hrows : db'.uncounted.automations = db.uncounted.automations := hsame
  refine ⟨a, ?_, hrest⟩
  rw [automation?, hrows]
  exact hget

theorem Shows.updateAutomation (h : db.Shows id x) (hupdate : db.updateAutomation b = .ok db')
    (hb : b.id = id → b.Restorable) : db'.Shows id (if b.id = id then b.settings else x) := by
  obtain ⟨a, hget, hsettings, hnumbers⟩ := h
  have hgot := automation?_updateAutomation hget (updateAutomation_uncounted hupdate)
  split
  · rename_i hid
    obtain ⟨nodes, hdocument, hblank, hnodes⟩ := hb hid
    rw [if_pos hid, hdocument] at hgot
    refine ⟨_, hgot, ?_, hnodes⟩
    simp only [Automation.settings, hblank]
  · rename_i hid
    rw [if_neg hid] at hgot
    exact ⟨a, hgot, hsettings, hnumbers⟩

theorem Shows.setStatus (h : db.Shows id x) (id' : Uuid) (status : AutomationStatus) :
    (db.setStatus id' status).2.Shows id (if id' = id then { x with status := status } else x) := by
  obtain ⟨a, hget, hsettings, hnumbers⟩ := h
  have hgot := automation?_setStatus hget id' status
  rw [← setStatus_uncounted] at hgot
  refine ⟨_, hgot, ?_, ?_⟩
  · rw [← hsettings]
    split <;> rfl
  · split <;> exact hnumbers

theorem Shows.found (h : db.Shows id x) (status : AutomationStatus) : (db.setStatus id status).1 = true := by
  obtain ⟨a, hget, -⟩ := h
  obtain ⟨r, hfind, -⟩ := automation?_eq_some.mp hget
  have hrow := List.mem_of_find?_eq_some hfind
  obtain ⟨r', hr', rfl⟩ := List.mem_map.mp hrow
  have hid : (r'.uncounted.id == id.text) = true := by simpa using List.find?_some hfind
  exact List.any_eq_true.mpr ⟨r', hr', hid⟩

end Database
end Outreach
