import Outreach.Proofs.Sweep.AtMostOnce

/-! Sweeps whose calls may fail. A sweep records nothing for a task but what came of its own claim, and a finished
task stays finished unless a claim for it has failed. -/
namespace Outreach
open SweepEvent Service Database

namespace Race
variable {around : Surroundings} {s₀ s s' : Race}

theorem Inv.status_of_terminal {faulty : Prop} (hs : s.Inv around faulty) (h : Run around faulty s s')
    {row row' : TaskRow} (hrow : row ∈ s.tasks) (hrow' : row' ∈ s'.tasks) (hid : row'.id = row.id)
    (hrefused : ¬ s'.Refused row.id) {status : TaskStatus} (hterminal : status.isTerminal = true)
    (hstatus : row.status = status.text) : row'.status = row.status := by
  induction h generalizing row' with
  | refl => rw [hs.ids.unique hrow' hrow hid]
  | @tail s₁ s₂ hrun hstep ih =>
    have hs₁ := hs.run hrun
    have hrefused₁ : ¬ s₁.Refused row.id := fun h => hrefused (refused_of_step hs₁ hstep h)
    obtain ⟨old, hold, holdid, hmove⟩ | ⟨hlast, -⟩ := hs₁.status_step hstep hrow' (hid ▸ hrefused)
    · have hbefore := ih hold (holdid.trans hid) hrefused₁
      rw [hbefore, hstatus] at hmove
      rw [hstatus]
      exact hmove.of_terminal hterminal
    · have hle := hs.ids.le row hrow
      have hgrow := last_le_of_run hs hrun
      omega

/-- Whatever a sweep records is for a task that it has won, or says why its claim has failed; and as long as no
claim for it has failed, a finished task stays finished. -/
theorem finished_of_no_failed_claim (hfresh : s₀.IsFresh) (h : Run around True s₀ s) :
    (∀ i t status error, .recorded t status error ∈ (s.sweeps i).log → t.id ∈ s.wonBy i ∨
      ∃ e, .refused t e ∈ (s.sweeps i).log ∧ status = .failed ∧ error = some e.message) ∧
    ∀ s', Run around True s s' → ∀ row ∈ s.tasks, ∀ row' ∈ s'.tasks, row'.id = row.id → ¬ s'.Refused row.id →
      ∀ status : TaskStatus, status.isTerminal = true → row.status = status.text → row'.status = row.status := by
  have hs := inv_of_run hfresh h
  refine ⟨fun i => (hs.tells i).accounted.2, fun s' hrun row hrow row' hrow' hid hrefused status => ?_⟩
  exact hs.status_of_terminal hrun hrow hrow' hid hrefused

def thirdSwept : Race := bothSwept.play .offline ([2, 2].map fun i => (i, none))

theorem finished_of_third : ∃ row ∈ bothSwept.tasks, row.status = TaskStatus.processed.text ∧
    ∀ row' ∈ thirdSwept.tasks, row'.id = row.id → row'.status = row.status := by
  have hboth : Run .offline True afterNoon bothSwept := run_play _ _ (by simp)
  have hthird : Run .offline True bothSwept thirdSwept := run_play _ _ (by simp)
  have hnone : ∀ id, ¬ thirdSwept.Refused id := by
    have hrun : Run .offline False afterNoon thirdSwept := (run_play _ _ (by simp)).trans (run_play _ _ (by simp))
    exact fun id => (inv_of_run afterNoon_isFresh hrun).faults id
  obtain ⟨row, hrow, hstatus⟩ : ∃ row ∈ bothSwept.tasks, row.status = TaskStatus.processed.text := by
    decide +kernel
  refine ⟨row, hrow, hstatus, fun row' hrow' hid => ?_⟩
  have hkeeps := (finished_of_no_failed_claim afterNoon_isFresh hboth).2 thirdSwept hthird
  exact hkeeps row hrow row' hrow' hid (hnone row.id) .processed rfl hstatus

def firstSwept : Race := afterNoon.play .offline ([0, 1, 0, 1, 0, 0, 0, 0, 0].map fun i => (i, none))

def overwritten : Race := firstSwept.play .offline [(1, some (.query "disk I/O error")), (1, none)]

/-- A processed task can become a failed one, as recorded by a sweep that has not won it. -/
theorem finished_overwritten : Run .offline True afterNoon firstSwept ∧ Run .offline True firstSwept overwritten ∧
    (firstSwept.tasks.map fun row => (row.id, row.status)) = [(1, TaskStatus.processed.text)] ∧
    (overwritten.tasks.map fun row => (row.id, row.status)) = [(1, TaskStatus.failed.text)] ∧
    (overwritten.sweeps 1).log.filterMap recorded? = [1] ∧ overwritten.wonBy 1 = [] := by
  refine ⟨run_play _ _ (by simp), run_play _ _ (by simp), ?_⟩
  decide +kernel

end Race
end Outreach
