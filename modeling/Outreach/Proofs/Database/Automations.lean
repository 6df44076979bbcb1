import Outreach.Database.Basic
import Outreach.Proofs.Automation.Graph
import Outreach.Proofs.Service.Plays
import Outreach.Proofs.Uuid

/-! The table of automations: what a row is read as, and what becomes of reading and listing once the nodes of one
automation are replaced. -/
namespace Outreach
open Stored

theorem AutomationStatus.parse_text (status : AutomationStatus) : AutomationStatus.parse status.text = .ok status := by
  cases status <;> decide

namespace AutomationRow
variable {r : AutomationRow} {a : Automation}

structure Holds (r : AutomationRow) (a : Automation) : Prop where
  allowReactivation : flag "allow_reactivation" r.allowReactivation = .ok a.allowReactivation
  blockOnOpenChat : flag "block_on_open_chat" r.blockOnOpenChat = .ok a.blockOnOpenChat
  status : named (AutomationStatus.parse r.status) = .ok a.status
  id : uuid r.id = .ok a.id
  userId : uuid r.userId = .ok a.userId
  name : r.name = a.name
  nodes : document "nodes" (Decode.list Node.decode) r.nodes = .ok a.nodes
  edges : document "edges" (Decode.list Edge.decode) r.edges = .ok a.edges
  createdAt : instant r.createdAt = .ok a.createdAt
  stats : r.stats = .ok a.executionStats

theorem holds_of_read (h : r.read = .ok a) : r.Holds a := by
  obtain ⟨allowReactivation, hallow, h⟩ := bind_eq_ok.mp h
  obtain ⟨blockOnOpenChat, hblock, h⟩ := bind_eq_ok.mp h
  obtain ⟨status, hstatus, h⟩ := bind_eq_ok.mp h
  obtain ⟨id, hid, h⟩ := bind_eq_ok.mp h
  obtain ⟨userId, huser, h⟩ := bind_eq_ok.mp h
  obtain ⟨nodes, hnodes, h⟩ := bind_eq_ok.mp h
  obtain ⟨edges, hedges, h⟩ := bind_eq_ok.mp h
  obtain ⟨createdAt, hcreated, h⟩ := bind_eq_ok.mp h
  obtain ⟨stats, hstats, h⟩ := bind_eq_ok.mp h
  cases h
  exact ⟨hallow, hblock, hstatus, hid, huser, rfl, hnodes, hedges, hcreated, hstats⟩

theorem flag_ofBool (column : String) (b : Bool) : flag column (.ofBool b) = .ok b := by
  cases b <;> rfl

theorem Holds.storable (h : r.Holds a) : ∀ n ∈ a.nodes, n.data.Storable sampleLimit := by
  have hnodes := h.nodes
  unfold document at hnodes
  split at hnodes
  · rename_i htext
    cases hnodes
    exact nodes_of_text htext
  · cases hnodes

/-- Once another graph is stored, a row is read with it as it comes back. -/
theorem Holds.read_withGraphOf (h : r.Holds a) (b : Automation) :
    (r.withGraphOf b).read =
      (document "nodes" (Decode.list Node.decode) (listText Node.encode b.nodes)).map fun nodes =>
        { b with
          id := a.id
          userId := a.userId
          nodes := nodes
          createdAt := a.createdAt
          executionStats := a.executionStats } := by
  have hstatus : named (AutomationStatus.parse b.status.text) = .ok b.status := by
    rw [AutomationStatus.parse_text]
    rfl
  have hedges : document "edges" (Decode.list Edge.decode) (listText Edge.encode b.edges) = .ok b.edges := by
    rw [document, listText, edges_text]
  have hstats : (r.withGraphOf b).stats = .ok a.executionStats := h.stats
  simp only [read, hstats]
  simp only [withGraphOf, ofAutomation, flag_ofBool, hstatus, h.id, h.userId, hedges, h.createdAt, bind, Except.bind]
  cases document "nodes" (Decode.list Node.decode) (listText Node.encode b.nodes) with
  | error e => rfl
  | ok nodes => rfl

theorem Holds.read_withStatus (h : r.Holds a) (status : AutomationStatus) :
    ({ r with status := status.text } : AutomationRow).read = .ok { a with status := status } := by
  have hstatus : named (AutomationStatus.parse status.text) = .ok status := by
    rw [AutomationStatus.parse_text]
    rfl
  have hname := h.name
  have hstats : ({ r with status := status.text } : AutomationRow).stats = .ok a.executionStats := h.stats
  simp only [read, hstats]
  simp only [h.allowReactivation, h.blockOnOpenChat, hstatus, h.id, h.userId, h.nodes, h.edges, h.createdAt, hname, bind,
    Except.bind]
  rfl

end AutomationRow

namespace Database
variable {db db' : Database} {r : AutomationRow} {a : Automation} {listed : List Automation}

theorem byAge_map {α : Type} {g : α → α} {createdAt id : α → String} (hcreated : ∀ a, createdAt (g a) = createdAt a)
    (hid : ∀ a, id (g a) = id a) (rows : List α) :
    byAge createdAt id (rows.map g) = (byAge createdAt id rows).map g := by
  rw [byAge, byAge, List.map_mergeSort]
  intro a _ b _
  rw [hcreated, hcreated, hid, hid]

structure Identified (db : Database) : Prop where
  written : ∀ r ∈ db.automations, ∃ id : Uuid, r.id = id.text
  different : (db.automations.map (·.id)).Nodup

theorem Identified.id_of_read (h : db.Identified) (hr : r ∈ db.automations) (hread : r.read = .ok a) :
    r.id = a.id.text := by
  obtain ⟨id, hid⟩ := h.written r hr
  have hparsed := (AutomationRow.holds_of_read hread).id
  rw [hid, uuid, Uuid.parse?_text] at hparsed
  rw [hid, Except.ok.inj hparsed]

theorem Identified.find? (h : db.Identified) (hr : r ∈ db.automations) :
    db.automations.find? (·.id == r.id) = some r := by
  cases hfind : db.automations.find? (·.id == r.id) with
  | none => exact absurd (beq_self_eq_true r.id) (List.find?_eq_none.mp hfind r hr)
  | some r' =>
    have hid : r'.id = r.id := by simpa using List.find?_some hfind
    rw [List.inj_on_of_nodup_map h.different (List.mem_of_find?_eq_some hfind) hr hid]

theorem Identified.of_ids (h : db.Identified)
    (hids : (db'.automations.map (·.id)).Sublist (db.automations.map (·.id))) : db'.Identified where
  written r hr := by
    obtain ⟨r₀, hr₀, hid⟩ := List.mem_map.mp (hids.subset (List.mem_map_of_mem hr))
    rw [← hid]
    exact h.written r₀ hr₀
  different := h.different.sublist hids

theorem Identified.change (h : db.Identified) (p : AutomationRow → Bool) {g : AutomationRow → AutomationRow}
    (hg : ∀ r, (g r).id = r.id) : Identified { db with automations := (change p g db.automations).2 } := by
  have hids : ((Database.change p g db.automations).2.map (·.id)) = db.automations.map (·.id) := by
    simp only [Database.change, List.map_map]
    apply List.map_congr_left
    intro r _
    simp only [Function.comp_apply]
    split
    · exact hg r
    · rfl
  exact h.of_ids (hids ▸ List.Sublist.refl _)

/-- An automation is only made under an id that is free. -/
theorem Identified.createAutomation (h : db.Identified) (hmade : db.createAutomation a = .ok db') : db'.Identified := by
  unfold Database.createAutomation at hmade
  split at hmade
  · cases hmade
  · rename_i hfree
    cases hmade
    constructor
    · refine List.forall_mem_append.mpr ⟨h.written, List.forall_mem_singleton.mpr ⟨a.id, rfl⟩⟩
    · rw [List.map_append]
      refine h.different.append (List.nodup_singleton _) (List.disjoint_singleton.mpr fun hid => hfree ?_)
      obtain ⟨r, hr, hid⟩ := List.mem_map.mp hid
      exact List.any_eq_true.mpr ⟨r, hr, beq_iff_eq.mpr hid⟩

theorem Identified.updateAutomation (h : db.Identified) (hupdate : db.updateAutomation a = .ok db') :
    db'.Identified := by
  unfold Database.updateAutomation at hupdate
  split at hupdate
  · rename_i rows hrows
    cases hupdate
    have hchange := h.change (·.id == a.id.text) (g := (·.withGraphOf a)) fun _ => rfl
    rwa [hrows] at hchange
  · cases hupdate

theorem Identified.mergeStats {id : Uuid} {delta : ExecutionStats} (h : db.Identified)
    (hmerge : db.mergeStats id delta = .ok db') : db'.Identified := by
  unfold Database.mergeStats at hmerge
  split at hmerge
  · cases hmerge
  · obtain ⟨stats, -, hmerge⟩ := bind_eq_ok.mp hmerge
    cases hmerge
    exact h.change _ fun _ => rfl

theorem exists_row {audience : Audience} (hlist : db.listAutomations audience = .ok listed) (ha : a ∈ listed) :
    ∃ r ∈ db.automations, r.read = .ok a := by
  obtain ⟨r, hr, hread⟩ := mem_of_mapM hlist a ha
  have hr := (List.mergeSort_perm _ _).mem_iff.mp hr
  cases audience with
  | user id => exact ⟨r, (List.mem_filter.mp hr).1, hread⟩
  | all => exact ⟨r, hr, hread⟩

theorem exists_own_row {user : Uuid} (hlist : db.listAutomations (.user user) = .ok listed) (ha : a ∈ listed) :
    ∃ r ∈ db.automations, r.userId = user.text ∧ r.read = .ok a := by
  obtain ⟨r, hr, hread⟩ := mem_of_mapM hlist a ha
  obtain ⟨hr, howned⟩ := List.mem_filter.mp ((List.mergeSort_perm _ _).mem_iff.mp hr)
  exact ⟨r, hr, beq_iff_eq.mp howned, hread⟩

theorem Identified.automation? (h : db.Identified) (hlist : db.listAutomations .all = .ok listed) (ha : a ∈ listed) :
    db.automation? a.id = .ok (some a) := by
  obtain ⟨r, hr, hread⟩ := exists_row hlist ha
  rw [Database.automation?, ← h.id_of_read hr hread, h.find? hr]
  simp [hread]

theorem Identified.nodup {audience : Audience} (h : db.Identified) (hlist : db.listAutomations audience = .ok listed) :
    (listed.map (·.id)).Nodup := by
  obtain ⟨rows, hrows, hread⟩ : ∃ rows : List AutomationRow, rows.Sublist db.automations ∧
      (byAge (·.createdAt) (·.id) rows).mapM AutomationRow.read = .ok listed := by
    cases audience with
    | user id => exact ⟨_, List.filter_sublist, hlist⟩
    | all => exact ⟨_, .refl _, hlist⟩
  have htexts : (listed.map (·.id)).map Uuid.text = (byAge (·.createdAt) (·.id) rows).map (·.id) := by
    rw [List.map_map]
    refine map_of_mapM hread fun r hr a hread => (h.id_of_read (hrows.subset ?_) hread).symm
    exact (List.mergeSort_perm _ _).mem_iff.mp hr
  refine .of_map Uuid.text ?_
  rw [htexts]
  exact ((List.mergeSort_perm _ _).map _).nodup_iff.mpr (h.different.sublist (hrows.map _))

theorem updateAutomation_eq (h : db.updateAutomation a = .ok db') : ∃ rows, db' = { db with automations := rows } := by
  unfold updateAutomation at h
  split at h
  · cases h
    exact ⟨_, rfl⟩
  · cases h

theorem automation?_eq_some {id : Uuid} : db.automation? id = .ok (some a) ↔
    ∃ r, db.automations.find? (·.id == id.text) = some r ∧ r.read = .ok a := by
  rw [Database.automation?]
  cases db.automations.find? (·.id == id.text) with
  | none => simp [pure, Except.pure]
  | some r =>
    rw [Option.mapM_some]
    constructor
    · intro h
      obtain ⟨a', hread, ha'⟩ := map_eq_ok.mp h
      cases ha'
      exact ⟨r, rfl, hread⟩
    · intro h
      obtain ⟨r', hr', hread⟩ := h
      cases hr'
      rw [hread]
      rfl

/-- What is read of an automation once the rows of one id are changed. -/
theorem automation?_change {id : Uuid} (id' : Uuid) {g : AutomationRow → AutomationRow} {y : Read Automation}
    (hget : db.automation? id = .ok (some a)) (hid : ∀ r, (g r).id = r.id) (hread : ∀ r, r.Holds a → (g r).read = y) :
    Database.automation? id { db with automations := (change (·.id == id'.text) g db.automations).2 } =
      if id' = id then y.map some else .ok (some a) := by
  obtain ⟨r, hfind, hr⟩ := automation?_eq_some.mp hget
  have hchanged := find?_change (p := fun r : AutomationRow => r.id == id'.text) (q := fun r => r.id == id.text) (g := g)
    (fun r => by rw [hid]) db.automations
  have hown : r.id = id.text := by simpa using List.find?_some hfind
  rw [Database.automation?, hchanged, hfind, Option.map_some, Option.mapM_some]
  by_cases hsame : id' = id
  · rw [if_pos hsame, if_pos (by rw [hown, hsame]; exact beq_self_eq_true _), hread r (AutomationRow.holds_of_read hr)]
    rfl
  · rw [if_neg hsame, if_neg (by rw [hown, beq_iff_eq, Uuid.text_inj]; exact Ne.symm hsame), hr]
    rfl

/-- Another graph is stored for the automation, or for another one. -/
theorem automation?_updateAutomation {id : Uuid} {b : Automation} (hget : db.automation? id = .ok (some a))
    (hupdate : db.updateAutomation b = .ok db') : db'.automation? id =
      if b.id = id then
        (document "nodes" (Decode.list Node.decode) (listText Node.encode b.nodes)).map fun nodes => some
          { b with
            id := a.id
            userId := a.userId
            nodes := nodes
            createdAt := a.createdAt
            executionStats := a.executionStats }
      else .ok (some a) := by
  have hchanged := automation?_change b.id hget (g := (·.withGraphOf b)) (fun _ => rfl) fun r hr =>
    hr.read_withGraphOf b
  unfold updateAutomation at hupdate
  split at hupdate
  · rename_i rows hrows
    cases hupdate
    rw [hrows] at hchanged
    rw [hchanged]
    congr 1
    cases document "nodes" (Decode.list Node.decode) (listText Node.encode b.nodes) <;> rfl
  · cases hupdate

theorem automation?_setStatus {id : Uuid} (hget : db.automation? id = .ok (some a)) (id' : Uuid)
    (status : AutomationStatus) : (db.setStatus id' status).2.automation? id =
      .ok (some (if id' = id then { a with status := status } else a)) := by
  have hchanged := automation?_change id' hget (g := fun r => { r with status := status.text }) (fun _ => rfl)
    fun r hr => hr.read_withStatus status
  refine hchanged.trans ?_
  split <;> rfl

section Update
variable {nodes : List Node} (h : db.Identified) (hlist : db.listAutomations .all = .ok listed) (ha : a ∈ listed)
  (hupdate : db.updateAutomation { a with nodes := nodes } = .ok db')
include h hlist ha hupdate

/-- The row of the automation has the new nodes; the other rows are as they were. -/
theorem rows_of_update : ∃ r ∈ db.automations, r.read = .ok a ∧ db' = { db with
    automations := db.automations.map fun r' =>
      if r'.id == r.id then r'.withGraphOf { a with nodes := nodes } else r' } := by
  obtain ⟨r, hr, hread⟩ := exists_row hlist ha
  refine ⟨r, hr, hread, ?_⟩
  unfold updateAutomation at hupdate
  split at hupdate
  · rename_i rows hrows
    cases hupdate
    have hrows : db.automations.map _ = rows := congrArg Prod.snd hrows
    rw [h.id_of_read hr hread, ← hrows]
  · cases hupdate

theorem automation?_update : db'.automation? a.id =
    (document "nodes" (Decode.list Node.decode) (listText Node.encode nodes)).map fun nodes =>
      some { a with nodes := nodes } := by
  have hgot := automation?_updateAutomation (h.automation? hlist ha) hupdate
  rwa [if_pos rfl] at hgot

theorem listAutomations_update {nodes' : List Node}
    (htext : document "nodes" (Decode.list Node.decode) (listText Node.encode nodes) = .ok nodes') :
    db'.listAutomations .all = .ok (listed.map fun b => if b.id = a.id then { a with nodes := nodes' } else b) := by
  obtain ⟨r, hr, hread, rfl⟩ := rows_of_update h hlist ha hupdate
  have hread' := (AutomationRow.holds_of_read hread).read_withGraphOf { a with nodes := nodes }
  rw [htext] at hread'
  refine (congrArg (List.mapM AutomationRow.read) (byAge_map (fun r' => ?_) (fun r' => ?_) _)).trans
    (mapM_map_eq_ok hlist fun r' hr' b hb => ?_)
  · split <;> rfl
  · split <;> rfl
  · have hr' := (List.mergeSort_perm _ _).mem_iff.mp hr'
    have hids : r'.id = r.id ↔ b.id = a.id := by
      rw [h.id_of_read hr' hb, h.id_of_read hr hread, Uuid.text_inj]
    by_cases hid : r'.id = r.id
    · obtain rfl := List.inj_on_of_nodup_map h.different hr' hr hid
      rw [if_pos (beq_self_eq_true _), if_pos (hids.mp rfl)]
      exact hread'
    · rw [if_neg (by simpa using hid), if_neg (mt hids.mpr hid)]
      exact hb

theorem listAutomations_update_error {e : RepositoryError}
    (htext : document "nodes" (Decode.list Node.decode) (listText Node.encode nodes) = .error e) :
    db'.listAutomations .all = .error e := by
  obtain ⟨r, hr, hread, rfl⟩ := rows_of_update h hlist ha hupdate
  have hread' := (AutomationRow.holds_of_read hread).read_withGraphOf { a with nodes := nodes }
  rw [htext] at hread'
  refine mapM_eq_error (fun r' hr' => ?_) ⟨_, (List.mergeSort_perm _ _).mem_iff.mpr (List.mem_map_of_mem hr), ?_⟩
  · obtain ⟨r₀, hr₀, rfl⟩ := List.mem_map.mp ((List.mergeSort_perm _ _).mem_iff.mp hr')
    by_cases hid : r₀.id = r.id
    · obtain rfl := List.inj_on_of_nodup_map h.different hr₀ hr hid
      rw [if_pos (beq_self_eq_true _)]
      exact .inl hread'
    · rw [if_neg (by simpa using hid)]
      obtain ⟨b, -, hb⟩ := exists_of_mapM hlist r₀ ((List.mergeSort_perm _ _).mem_iff.mpr hr₀)
      exact .inr ⟨b, hb⟩
  · rw [if_pos (beq_self_eq_true _)]
    exact hread'

end Update

end Database

namespace Service
open Database
variable {around : Surroundings} {s s' : Service}

theorem writing_identified {y : Except RepositoryError Database} (h : s.db.Identified)
    (hy : ∀ db, y = .ok db → db.Identified) : (s.writing y).2.db.Identified := by
  cases y with
  | ok db => exact hy db rfl
  | error e => exact h

theorem answer_identified (r : Request) (s : Service) (h : s.db.Identified) : (answer around r s).2.db.Identified := by
  have hleaves (hr : r.LeavesAutomations) : (answer around r s).2.db.Identified := by
    have hsame : (answer around r s).2.db.automations = s.db.automations := answer_automations hr
    exact h.of_ids (hsame ▸ List.Sublist.refl _)
  cases r with
  | createAutomation a => exact writing_identified h fun _ => h.createAutomation
  | updateAutomation a => exact writing_identified h fun _ => h.updateAutomation
  | mergeStats id delta => exact writing_identified h fun _ => h.mergeStats
  | setStatus id status => exact h.change (·.id == id.text) fun _ => rfl
  | deleteAutomation id => exact h.of_ids (List.filter_sublist.map _)
  | _ => exact hleaves trivial

end Service
end Outreach
