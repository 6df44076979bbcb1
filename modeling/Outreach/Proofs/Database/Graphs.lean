import Outreach.Proofs.Database.Automations
import Outreach.Proofs.Engine.Intake

/-! Automations apart from their counters. Runs add to counters and leave all else, so that whatever is listed later is
what was listed before, with other counters. -/
namespace Outreach

def Automation.uncounted (a : Automation) : Automation := { a with executionStats := [] }

namespace AutomationRow
variable {r : AutomationRow} {a : Automation}

def uncounted (r : AutomationRow) : AutomationRow := { r with executionStats := (ExecutionStats.encode []).text }

theorem stats_uncounted (r : AutomationRow) : r.uncounted.stats = .ok [] := by
  rw [stats, uncounted, Stored.document, ExecutionStats.ofText_nil]

theorem read_uncounted (h : r.read = .ok a) : r.uncounted.read = .ok a.uncounted := by
  have hr := holds_of_read h
  have hname := hr.name
  simp only [read, stats_uncounted]
  simp only [uncounted, hr.allowReactivation, hr.blockOnOpenChat, hr.status, hr.id, hr.userId, hr.nodes, hr.edges,
    hr.createdAt, hname, bind, Except.bind]
  rfl

end AutomationRow

namespace Database
variable {db db' db'' : Database} {audience : Audience} {listed listed' : List Automation}

def uncounted (db : Database) : Database := { db with automations := db.automations.map AutomationRow.uncounted }

theorem listAutomations_uncounted (h : db.listAutomations audience = .ok listed) :
    db.uncounted.listAutomations audience = .ok (listed.map Automation.uncounted) := by
  have hrows (rows : List AutomationRow) (h : (byAge (·.createdAt) (·.id) rows).mapM AutomationRow.read = .ok listed) :
      (byAge (·.createdAt) (·.id) (rows.map AutomationRow.uncounted)).mapM AutomationRow.read =
        .ok (listed.map Automation.uncounted) := by
    rw [byAge_map (g := AutomationRow.uncounted) (fun _ => rfl) fun _ => rfl]
    exact mapM_map_eq_ok h fun r _ a => AutomationRow.read_uncounted
  cases audience with
  | all => exact hrows _ h
  | user id =>
    have hfilter : (db.automations.map AutomationRow.uncounted).filter (·.userId == id.text) =
        (db.automations.filter (·.userId == id.text)).map AutomationRow.uncounted := by
      rw [List.filter_map]
      rfl
    rw [listAutomations, uncounted, hfilter]
    exact hrows _ h

def SameGraphs (db db' : Database) : Prop :=
  db'.automations.map AutomationRow.uncounted = db.automations.map AutomationRow.uncounted

theorem SameGraphs.refl (db : Database) : db.SameGraphs db := rfl

theorem SameGraphs.trans (h : db.SameGraphs db') (h' : db'.SameGraphs db'') : db.SameGraphs db'' :=
  Eq.trans h' h

theorem SameGraphs.of_automations (h : db'.automations = db.automations) : db.SameGraphs db' :=
  congrArg (List.map AutomationRow.uncounted) h

theorem SameGraphs.map_uncounted (h : db.SameGraphs db') (hlist : db.listAutomations audience = .ok listed)
    (hlist' : db'.listAutomations audience = .ok listed') :
    listed'.map Automation.uncounted = listed.map Automation.uncounted := by
  have hbefore := listAutomations_uncounted hlist
  have hafter := listAutomations_uncounted hlist'
  have hrows : db'.uncounted.automations = db.uncounted.automations := h
  have hsame : db'.uncounted.listAutomations audience = db.uncounted.listAutomations audience := by
    unfold listAutomations
    rw [hrows]
  exact Except.ok.inj (hafter.symm.trans (hsame.trans hbefore))

/-- Whoever is listed for one user was listed for all, with other counters. -/
theorem SameGraphs.exists_listed (h : db.SameGraphs db') (hlist : db.listAutomations .all = .ok listed)
    (hlist' : db'.listAutomations audience = .ok listed') :
    ∀ a' ∈ listed', ∃ a ∈ listed, a' = { a with executionStats := a'.executionStats } := by
  intro a' ha'
  obtain ⟨r', hr', hread'⟩ := exists_row hlist' ha'
  have hmem : r'.uncounted ∈ db.automations.map AutomationRow.uncounted := by
    rw [← h]
    exact List.mem_map_of_mem hr'
  obtain ⟨r, hr, hsame⟩ := List.mem_map.mp hmem
  obtain ⟨a, ha, hread⟩ := exists_of_mapM hlist r ((List.mergeSort_perm _ _).mem_iff.mpr hr)
  have huncounted := AutomationRow.read_uncounted hread
  rw [hsame, AutomationRow.read_uncounted hread'] at huncounted
  have heq : a'.uncounted = a.uncounted := Except.ok.inj huncounted
  exact ⟨a, ha, congrArg (fun b : Automation => { b with executionStats := a'.executionStats }) heq⟩

theorem mergeStats_sameGraphs {id : Uuid} {delta : ExecutionStats} (h : db.mergeStats id delta = .ok db') :
    db.SameGraphs db' := by
  unfold mergeStats at h
  split at h
  · cases h
  · obtain ⟨old, -, hmerged⟩ := bind_eq_ok.mp h
    cases hmerged
    simp only [SameGraphs, List.map_map]
    apply List.map_congr_left
    intro r _
    simp only [Function.comp_apply]
    split <;> rfl

end Database

def Request.KeepsGraphs : Request → Prop
  | .createAutomation _ | .updateAutomation _ | .setStatus .. | .deleteAutomation _ => False
  | _ => True

theorem Request.LeavesAutomations.keepsGraphs {r : Request} (h : r.LeavesAutomations) : r.KeepsGraphs := by
  cases r <;> first | exact trivial | exact h.elim

theorem Request.KeepsGraphs.leaves_or_merge {r : Request} (h : r.KeepsGraphs) :
    r.LeavesAutomations ∨ ∃ id delta, r = .mergeStats id delta := by
  cases r <;> first | exact h.elim | exact .inr ⟨_, _, rfl⟩ | exact .inl trivial

theorem Request.IsFiring.keepsGraphs {r : Request} (h : r.IsFiring) : r.KeepsGraphs := by
  cases r <;> first | exact trivial | exact h.elim id id

theorem Request.IsIntake.keepsGraphs {r : Request} (h : r.IsIntake) : r.KeepsGraphs := by
  cases r <;> first | exact trivial | exact IsFiring.keepsGraphs h

theorem Service.Answers.sameGraphs {around : Surroundings} {r : Request} {s s' : Service} {x : r.Reply}
    (h : Answers around r s x s') (hr : r.KeepsGraphs) : s.db.SameGraphs s'.db := by
  obtain hleaves | ⟨id, delta, rfl⟩ := hr.leaves_or_merge
  · exact .of_automations (h.automations hleaves)
  · cases x with
    | error e =>
      obtain ⟨clock, network, seed, h⟩ := h
      rw [Service.writing_eq_error h]
      exact .refl _
    | ok _ => exact Database.mergeStats_sameGraphs h.merge

end Outreach
