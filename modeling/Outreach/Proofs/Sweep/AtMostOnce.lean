import Outreach.Proofs.Sweep.Exclusion

/-! Sweeps that race for the same tasks, with storage that does not fail: no run is resumed twice. -/
namespace Outreach
open SweepEvent Service Database

namespace Race
variable {around : Surroundings} {s₀ s : Race}

theorem inv_of_run {faulty : Prop} (hfresh : s₀.IsFresh) (h : Run around faulty s₀ s) : s.Inv around faulty :=
  Inv.run (inv_of_fresh hfresh) h

theorem Inv.won_nodup {faulty : Prop} (hs : s.Inv around faulty) (i : Nat) : (s.wonBy i).Nodup :=
  ((hs.tells i).verdicts_nodup (hs.once i)).sublist (won_sublist _)

theorem Inv.none_refused (hs : s.Inv around False) (i : Nat) : (s.sweeps i).log.filterMap refused? = [] := by
  rw [List.eq_nil_iff_forall_not_mem]
  exact fun id hid => hs.faults id ⟨i, hid⟩

/-- Without failing claims, whatever is told of a task is told by its winner. -/
theorem Inv.idle (hs : s.Inv around False) {i : Nat} {id : Int} (hid : id ∉ s.wonBy i) :
    ranFor id (s.sweeps i).log = [] ∧
      ∀ t status error, t.id = id → .recorded t status error ∉ (s.sweeps i).log := by
  obtain ⟨hran, hrecorded⟩ := (hs.tells i).accounted
  refine ⟨ranFor_of_not_won hran hid, fun t status error ht hmem => ?_⟩
  obtain hwon | ⟨e, he, -⟩ := hrecorded t status error hmem
  · exact hid (ht ▸ hwon)
  · exact hs.faults t.id ⟨i, List.mem_filterMap.mpr ⟨_, he, rfl⟩⟩

/-- The summary of a sweep that has come to its end counts what it won, and skips the rest of what it listed. -/
theorem Inv.summary (hs : s.Inv around False) {i : Nat} {summary : SweepSummary}
    (hended : (s.sweeps i).phase = .ended (.ok summary)) : ∃ due, .listed due ∈ (s.sweeps i).log ∧
      summary.processed + summary.failed = (s.wonBy i).length ∧
      summary.skipped = ((due.map (·.id)).filter (· ∉ s.wonBy i)).length := by
  have hrefused := hs.none_refused i
  have hverdicts := (hs.tells i).verdicts_nodup (hs.once i)
  have htells := hs.tells i
  rw [Sweeper.Tells, hended] at htells
  obtain ⟨due, l, hlog, hl⟩ := htells
  have hlost := lost_eq hverdicts hrefused
  obtain ⟨hskipped, hworked⟩ := hl.counts
  have hwonl : s.wonBy i = l.filterMap won? := by rw [wonBy, hlog]; rfl
  rw [hlog] at hlost hrefused
  refine ⟨due, by simp [hlog], ?_, ?_⟩
  · have hrefusedl : l.filterMap refused? = [] := hrefused
    rw [hworked, hwonl, hrefusedl, List.length_nil, Nat.add_zero]
  · rw [hskipped, hwonl, ← hl.verdicts]
    exact congrArg List.length hlost

/-- A task is won by one sweep and once; all that is asked for it comes of one run by its winner; its status goes
from pending to processing and from there to its end; and a sweep skips what it listed and did not win, and does
nothing for it. -/
theorem resumed_at_most_once (hfresh : s₀.IsFresh) (h : Run around False s₀ s) :
    (∀ i, (s.wonBy i).Nodup) ∧ (∀ i j id, id ∈ s.wonBy i → id ∈ s.wonBy j → i = j) ∧
    (∀ i t, .won t ∈ (s.sweeps i).log →
      ∃ q, (t.resume around.settings around.limit).run.Leads (ranFor t.id (s.sweeps i).log) q) ∧
    (∀ i id, id ∉ s.wonBy i → ranFor id (s.sweeps i).log = [] ∧
      ∀ t status error, t.id = id → .recorded t status error ∉ (s.sweeps i).log) ∧
    (∀ s', Step around False s s' → ∀ row ∈ s'.tasks,
      (∃ old ∈ s.tasks, old.id = row.id ∧ StatusStep old.status row.status) ∨
        (∀ old ∈ s.tasks, old.id ≠ row.id) ∧ row.status = TaskStatus.pending.text) ∧
    ∀ i summary, (s.sweeps i).phase = .ended (.ok summary) → ∃ due, .listed due ∈ (s.sweeps i).log ∧
      summary.processed + summary.failed = (s.wonBy i).length ∧
      summary.skipped = ((due.map (·.id)).filter (· ∉ s.wonBy i)).length := by
  have hs := inv_of_run hfresh h
  refine ⟨hs.won_nodup, fun i j id => hs.one, fun i t ht => ?_, fun i id => hs.idle, fun s' hstep row hrow => ?_,
    fun i summary => hs.summary⟩
  · exact (hs.tells i).runsOnce (hs.won_nodup i) t ht
  · have hmoves := hs.status_step hstep hrow ((hs.step hstep).faults row.id)
    refine hmoves.imp_right fun ⟨hlast, hstatus⟩ => ⟨?_, hstatus⟩
    intro old hold holdid
    have := hs.ids.le old hold
    omega

def oneTask : Database :=
  let id : Uuid := default
  let noon : Instant := ⟨1717416000, 0⟩
  { automations := [.ofAutomation ⟨id, id, "welcome", .active, [], [], noon, true, false, []⟩]
    contacts := [.ofContact ⟨1, id, "Ana", "5581999900001", [], none, false, false, none, noon, []⟩]
    connections := [.ofConnection ⟨id, id, "main", "1", "2", "key", noon⟩]
    boards := []
    tasks := [.ofNew 1 noon ⟨id, 1, id, id, "greet", noon, .obj []⟩]
    lastContactId := 1
    lastTaskId := 1 }

def ofDatabase (db : Database) (clock : Instant) : Race := ⟨.new db clock 0, fun _ => .start⟩

def afterNoon : Race := ofDatabase oneTask ⟨1717419600, 0⟩

theorem afterNoon_isFresh : afterNoon.IsFresh where
  ids := ⟨by simp [afterNoon, ofDatabase, oneTask, Service.new],
    by simp [afterNoon, ofDatabase, oneTask, Service.new, TaskRow.ofNew]⟩
  sweeps _ := rfl

def bothSwept : Race := afterNoon.play .offline ([0, 1, 0, 1, 0, 1, 0, 0, 0, 0].map fun i => (i, none))

theorem resumed_at_most_once_of_both : Run .offline False afterNoon bothSwept ∧
    (bothSwept.wonBy 0 = [1] ∧ bothSwept.tasks.map (·.status) = ["processed"]) ∧
    ∀ i j id, id ∈ bothSwept.wonBy i → id ∈ bothSwept.wonBy j → i = j := by
  have hrun : Run .offline False afterNoon bothSwept := run_play _ _ (by simp)
  exact ⟨hrun, by decide +kernel, (resumed_at_most_once afterNoon_isFresh hrun).2.1⟩

end Race
end Outreach
