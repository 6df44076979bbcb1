import Outreach.Proofs.Sweep.Race

/-! What every run of a race keeps. A won task is never pending again, so nobody wins it twice; and as long as no
claim for it has failed, it stays as it was taken until its only winner records how it ended. -/
namespace Outreach
open SweepEvent Service Database

inductive StatusStep : String → String → Prop where
  | same (s : String) : StatusStep s s
  | taken : StatusStep TaskStatus.pending.text TaskStatus.processing.text
  | ended (failure : Option String) : StatusStep TaskStatus.processing.text (statusAfter failure).text

theorem StatusStep.of_terminal {s : TaskStatus} {t : String} (h : StatusStep s.text t) (hs : s.isTerminal = true) :
    t = s.text := by
  generalize hu : s.text = u at h
  cases h with
  | same => rfl
  | taken =>
    cases TaskStatus.text_inj.mp hu
    cases hs
  | ended failure =>
    cases TaskStatus.text_inj.mp hu
    cases hs

theorem TaskRow.under_claim_not_pending (row : TaskRow) : isPending (row.under (.claimTask row.id)) = false := by
  cases h : isPending row with
  | true =>
    rw [TaskRow.under_claim rfl h]
    exact isPending_of_status (s := .processing) rfl (by simp)
  | false => rwa [TaskRow.under_claim_other (.inr h)]

section
variable {now : Instant} {r : Request} {a b : Database}

/-- A row that is not new comes from the row that had its id. -/
theorem Service.TasksMove.old (h : TasksMove now r a b) {row : TaskRow} (hrow : row ∈ b.tasks)
    (hid : row.id ≤ a.lastTaskId) : ∃ old ∈ a.tasks, old.id = row.id ∧ row = old.under r := by
  obtain ⟨old, hold, rfl⟩ | ⟨hnew, -⟩ := h.origin hrow
  · exact ⟨old, hold, (TaskRow.id_under r old).symm, rfl⟩
  · omega

end

section Turns
variable {faulty : Prop} {a b : Database} {w w' : Sweeper} {id : Int}

theorem Turn.moves (h : Turn faulty a b w w') (now : Instant) : ∃ now r, TasksMove now r a b := by
  cases h with
  | quiet other moves => exact ⟨_, _, moves⟩
  | won t pending moves => exact ⟨_, _, moves⟩
  | refused may t e same =>
    subst same
    exact ⟨now, _, tasksMove_refl (r := .now) id now a⟩
  | recorded t failure before moves => exact ⟨_, _, moves⟩

theorem Turn.log_prefix (h : Turn faulty a b w w') : w.log <+: w'.log := by
  cases h with
  | quiet other moves told log => exact ⟨told, log.symm⟩
  | won t pending moves log => exact ⟨_, log.symm⟩
  | refused may t e same log => exact ⟨_, log.symm⟩
  | recorded t failure before moves log => exact ⟨_, log.symm⟩

theorem quiet_verdicts {told : List SweepEvent} (h : ∀ e ∈ told, e.IsQuiet) :
    told.filterMap won? = [] ∧ told.filterMap refused? = [] := by
  constructor
  all_goals
    refine List.filterMap_eq_nil_iff.mpr fun e he => ?_
    have hquiet := h e he
    cases e <;> first | rfl | exact hquiet.elim

/-- A task that is won in a turn was pending before, and is not afterwards. -/
theorem Turn.won_or (h : Turn faulty a b w w') (hids : a.TaskIds) (hid : id ∈ w'.log.filterMap won?) :
    id ∈ w.log.filterMap won? ∨ (∃ row ∈ a.tasks, row.id = id ∧ isPending row = true) ∧
      ∀ row ∈ b.tasks, row.id = id → isPending row = false := by
  cases h with
  | quiet other moves told log quiet => simpa [log, quiet_verdicts quiet] using Or.inl hid
  | won t pending moves log =>
    rw [log, List.filterMap_append, List.mem_append] at hid
    obtain hid | hid := hid
    · exact .inl hid
    · obtain rfl : id = t.id := by simpa [List.filterMap_cons, won?] using hid
      refine .inr ⟨pending, fun row hrow hid => ?_⟩
      obtain ⟨p, hp, hpid, -⟩ := pending
      have hle := hids.le p hp
      obtain ⟨old, hold, holdid, rfl⟩ := moves.old hrow (by omega)
      rw [← hid, ← holdid]
      exact old.under_claim_not_pending
  | refused may t e same log => exact .inl (by simpa [log, List.filterMap_cons, won?] using hid)
  | recorded t failure before moves log => exact .inl (by simpa [log, List.filterMap_cons, won?] using hid)

theorem Turn.refused_or (h : Turn faulty a b w w') (hid : id ∈ w'.log.filterMap refused?) :
    id ∈ w.log.filterMap refused? ∨ faulty := by
  cases h with
  | quiet other moves told log quiet => exact .inl (by simpa [log, quiet_verdicts quiet] using hid)
  | won t pending moves log => exact .inl (by simpa [log, List.filterMap_cons, refused?] using hid)
  | refused may t e same log => exact .inr may
  | recorded t failure before moves log => exact .inl (by simpa [log, List.filterMap_cons, refused?] using hid)

theorem Turn.listsOnce (h : Turn faulty a b w w') (hw : w.ListsOnce) : w'.ListsOnce := by
  intro due hdue
  cases h with
  | quiet other moves told log quiet =>
    rw [log] at hdue
    exact (List.mem_append.mp hdue).elim (hw due) (quiet _)
  | won t pending moves log => exact hw due (by simpa [log] using hdue)
  | refused may t e same log => exact hw due (by simpa [log] using hdue)
  | recorded t failure before moves log => exact hw due (by simpa [log] using hdue)

/-- A row keeps its status, or it was pending and is taken, or the sweep that works on it records an outcome. -/
theorem Turn.row (h : Turn faulty a b w w') {row : TaskRow} (hrow : row ∈ b.tasks) (hid : row.id ≤ a.lastTaskId) :
    ∃ old ∈ a.tasks, old.id = row.id ∧ (row.status = old.status ∨
      isPending old = true ∧ row.status = TaskStatus.processing.text ∨
      w.phase.current = some row.id ∧ ∃ failure, row.status = (statusAfter failure).text) := by
  cases h with
  | quiet other moves told log =>
    obtain ⟨old, hold, holdid, rfl⟩ := moves.old hrow hid
    exact ⟨old, hold, holdid, .inl (by rw [TaskRow.under_of_not_claiming other])⟩
  | won t pending moves log =>
    obtain ⟨old, hold, holdid, rfl⟩ := moves.old hrow hid
    refine ⟨old, hold, holdid, ?_⟩
    by_cases hp : old.id = t.id ∧ isPending old = true
    · exact .inr (.inl ⟨hp.2, by rw [TaskRow.under_claim hp.1 hp.2]⟩)
    · rw [not_and_or, Bool.not_eq_true] at hp
      exact .inl (by rw [TaskRow.under_claim_other hp])
  | refused may t e same log =>
    subst same
    exact ⟨row, hrow, rfl, .inl rfl⟩
  | recorded t failure before moves log =>
    obtain ⟨old, hold, holdid, rfl⟩ := moves.old hrow hid
    refine ⟨old, hold, holdid, ?_⟩
    by_cases ht : old.id = t.id
    · exact .inr (.inr ⟨by rw [before, ← holdid, ht], failure, by rw [TaskRow.under_update ht]⟩)
    · exact .inl (by rw [TaskRow.under_update_other ht])

/-- Whoever works on a task after a turn has just taken it, or worked on it before and left its row alone. -/
theorem Turn.held (h : Turn faulty a b w w') (hids : a.TaskIds) (hcurrent : w'.phase.current = some id)
    (hrefused : id ∉ w'.log.filterMap refused?) {row : TaskRow} (hrow : row ∈ b.tasks) (hid : row.id = id)
    (hle : id ≤ a.lastTaskId) : row.status = TaskStatus.processing.text ∨
      w.phase.current = some id ∧ ∃ old ∈ a.tasks, old.id = id ∧ row.status = old.status := by
  cases h with
  | quiet other moves told log quiet current =>
    rw [hcurrent] at current
    obtain ⟨old, hold, holdid, rfl⟩ := moves.old hrow (hid ▸ hle)
    refine .inr ⟨by simpa [eq_comm] using current, old, hold, holdid.trans hid, ?_⟩
    rw [TaskRow.under_of_not_claiming other]
  | won t pending moves log current =>
    obtain rfl : t.id = id := Option.some.inj (current.symm.trans hcurrent)
    obtain ⟨p, hp, hpid, hpending⟩ := pending
    obtain ⟨old, hold, holdid, rfl⟩ := moves.old hrow (hid ▸ hle)
    obtain rfl := hids.unique hp hold (by omega)
    exact .inl (by rw [TaskRow.under_claim hpid hpending])
  | refused may t e same log current =>
    obtain rfl : t.id = id := Option.some.inj (current.symm.trans hcurrent)
    exact absurd (by simp [log, SweepEvent.refused?]) hrefused
  | recorded t failure before moves log current => rw [current] at hcurrent; cases hcurrent

end Turns

namespace Race
variable {around : Surroundings} {faulty : Prop} {s s' : Race}

structure Inv (around : Surroundings) (faulty : Prop) (s : Race) : Prop where
  ids : s.service.db.TaskIds
  tells : ∀ i, (s.sweeps i).Tells around.settings around.limit
  once : ∀ i, (s.sweeps i).ListsOnce
  faults : ∀ id, s.Refused id → faulty
  one : ∀ {i j : Nat} {id : Int}, id ∈ s.wonBy i → id ∈ s.wonBy j → i = j
  taken : ∀ {i : Nat} {id : Int}, id ∈ s.wonBy i →
    id ≤ s.service.db.lastTaskId ∧ ∀ row ∈ s.tasks, row.id = id → isPending row = false
  held : ∀ {i : Nat} {id : Int}, (s.sweeps i).phase.current = some id → ¬ s.Refused id →
    ∀ row ∈ s.tasks, row.id = id → row.status = TaskStatus.processing.text

theorem inv_of_fresh (h : s.IsFresh) : s.Inv around faulty where
  ids := h.ids
  tells i := by rw [h.sweeps i]; rfl
  once i := by rw [h.sweeps i]; exact fun due hdue => by cases hdue
  faults id := by
    rintro ⟨i, hi⟩
    rw [h.sweeps i] at hi
    cases hi
  one hi := by
    rw [wonBy, h.sweeps] at hi
    cases hi
  taken hi := by
    rw [wonBy, h.sweeps] at hi
    cases hi
  held hi := by
    rw [h.sweeps] at hi
    cases hi

section Turns
variable {i : Nat} {w' : Sweeper} {id : Int} (hsweeps : s'.sweeps = Function.update s.sweeps i w')
  (h : Turn faulty s.service.db s'.service.db (s.sweeps i) w') (hs : s.Inv around faulty)

include hsweeps in
/-- Each sweep is the one whose turn it was, or it is as it was. -/
theorem sweeps_cases (k : Nat) : k = i ∧ s'.sweeps k = w' ∨ k ≠ i ∧ s'.sweeps k = s.sweeps k := by
  rw [hsweeps]
  by_cases hk : k = i
  · exact .inl ⟨hk, by rw [hk, Function.update_self]⟩
  · exact .inr ⟨hk, Function.update_of_ne hk _ _⟩

include hsweeps h

theorem refused_mono (hid : s.Refused id) : s'.Refused id := by
  obtain ⟨k, hk⟩ := hid
  refine ⟨k, ?_⟩
  obtain ⟨rfl, hw⟩ | ⟨-, hw⟩ := sweeps_cases hsweeps k <;> rw [hw]
  · exact (h.log_prefix.sublist.filterMap _).subset hk
  · exact hk

theorem faults_of_turn (hfaults : ∀ id, s.Refused id → faulty) (hid : s'.Refused id) : faulty := by
  obtain ⟨k, hk⟩ := hid
  obtain ⟨rfl, hw⟩ | ⟨-, hw⟩ := sweeps_cases hsweeps k <;> rw [hw] at hk
  · exact (h.refused_or hk).elim (fun hk => hfaults id ⟨k, hk⟩) fun may => may
  · exact hfaults id ⟨k, hk⟩

include hs

theorem wonBy_cases {k : Nat} (hid : id ∈ s'.wonBy k) : id ∈ s.wonBy k ∨ k = i ∧
    (∃ row ∈ s.tasks, row.id = id ∧ isPending row = true) ∧
      ∀ row ∈ s'.tasks, row.id = id → isPending row = false := by
  rw [wonBy] at hid
  obtain ⟨rfl, hw⟩ | ⟨-, hw⟩ := sweeps_cases hsweeps k <;> rw [hw] at hid
  · exact (h.won_or hs.ids hid).imp_right fun hnew => ⟨rfl, hnew⟩
  · exact .inl hid

theorem one_of_turn {k l : Nat} (hk : id ∈ s'.wonBy k) (hl : id ∈ s'.wonBy l) : k = l := by
  have hfresh {k : Nat} (hid : id ∈ s.wonBy k) : ¬ ∃ row ∈ s.tasks, row.id = id ∧ isPending row = true := by
    rintro ⟨row, hrow, hrowid, hp⟩
    rw [(hs.taken hid).2 row hrow hrowid] at hp
    cases hp
  obtain hk | ⟨rfl, hnew, -⟩ := wonBy_cases hsweeps h hs hk
  · obtain hl | ⟨rfl, hnew, -⟩ := wonBy_cases hsweeps h hs hl
    · exact hs.one hk hl
    · exact absurd hnew (hfresh hk)
  · obtain hl | ⟨rfl, -, -⟩ := wonBy_cases hsweeps h hs hl
    · exact absurd hnew (hfresh hl)
    · rfl

theorem taken_of_turn {k : Nat} (hid : id ∈ s'.wonBy k) :
    id ≤ s'.service.db.lastTaskId ∧ ∀ row ∈ s'.tasks, row.id = id → isPending row = false := by
  obtain ⟨now, r, hmoves⟩ := h.moves s.service.clock
  have hlast := hmoves.last_le
  obtain hid | ⟨-, ⟨row, hrow, rfl, -⟩, hnew⟩ := wonBy_cases hsweeps h hs hid
  · obtain ⟨hle, htaken⟩ := hs.taken hid
    refine ⟨by omega, fun row hrow hrowid => ?_⟩
    obtain ⟨old, hold, holdid, hrow⟩ := h.row hrow (by omega)
    have hold := htaken old hold (by omega)
    obtain hstatus | ⟨hp, -⟩ | ⟨-, failure, hstatus⟩ := hrow
    · rwa [isPending, hstatus]
    · rw [hp] at hold
      cases hold
    · exact isPending_of_status hstatus (by cases failure <;> simp [statusAfter])
  · have := hs.ids.le row hrow
    exact ⟨by omega, hnew⟩

theorem held_of_turn (hw' : w'.Tells around.settings around.limit) {k : Nat}
    (hcurrent : (s'.sweeps k).phase.current = some id) (hrefused : ¬ s'.Refused id) {row : TaskRow}
    (hrow : row ∈ s'.tasks) (hid : row.id = id) : row.status = TaskStatus.processing.text := by
  have hbefore : ¬ s.Refused id := fun hr => hrefused (refused_mono hsweeps h hr)
  have hwinner {k : Nat} (hk : (s.sweeps k).phase.current = some id) : id ∈ s.wonBy k :=
    ((hs.tells k).current hk).resolve_right fun hr => hbefore ⟨k, hr⟩
  obtain ⟨rfl, hw⟩ | ⟨hk, hw⟩ := sweeps_cases hsweeps k <;> rw [hw] at hcurrent
  · have hnot : id ∉ w'.log.filterMap refused? := fun hr => hrefused ⟨k, by rwa [hw]⟩
    have hwon : id ∈ s'.wonBy k := by
      rw [wonBy, hw]
      exact (hw'.current hcurrent).resolve_right hnot
    have hle : id ≤ s.service.db.lastTaskId := by
      obtain hold | ⟨-, ⟨p, hp, rfl, -⟩, -⟩ := wonBy_cases hsweeps h hs hwon
      · exact (hs.taken hold).1
      · exact hs.ids.le p hp
    obtain hstatus | ⟨hk, old, hold, holdid, hstatus⟩ := h.held hs.ids hcurrent hnot hrow hid hle
    · exact hstatus
    · rw [hstatus]
      exact hs.held hk hbefore old hold holdid
  · have hle := (hs.taken (hwinner hcurrent)).1
    obtain ⟨old, hold, holdid, hrow⟩ := h.row hrow (by omega)
    have hheld := hs.held hcurrent hbefore old hold (by omega)
    obtain hstatus | ⟨hp, -⟩ | ⟨hi, -⟩ := hrow
    · rwa [hstatus]
    · rw [isPending_of_status hheld (by simp)] at hp
      cases hp
    · exact absurd (hs.one (hwinner hcurrent) (hwinner (hid ▸ hi))) hk

end Turns

theorem Inv.step (hs : s.Inv around faulty) (h : Step around faulty s s') : s'.Inv around faulty := by
  obtain ⟨i, w', hsweeps, hw', hturn⟩ := h.turn hs.ids hs.tells
  obtain ⟨now, r, hmoves⟩ := hturn.moves s.service.clock
  refine ⟨hmoves.ids hs.ids, fun k => ?_, fun k => ?_, fun id => ?_, ?_, ?_, ?_⟩
  · obtain ⟨rfl, hw⟩ | ⟨-, hw⟩ := sweeps_cases hsweeps k <;> rw [hw]
    · exact hw'
    · exact hs.tells k
  · obtain ⟨rfl, hw⟩ | ⟨-, hw⟩ := sweeps_cases hsweeps k <;> rw [hw]
    · exact hturn.listsOnce (hs.once k)
    · exact hs.once k
  · exact faults_of_turn hsweeps hturn hs.faults
  · exact one_of_turn hsweeps hturn hs
  · exact taken_of_turn hsweeps hturn hs
  · exact fun hcurrent hrefused row => held_of_turn hsweeps hturn hs hw' hcurrent hrefused

theorem Inv.run (hs : s.Inv around faulty) (h : Run around faulty s s') : s'.Inv around faulty := by
  induction h with
  | refl => exact hs
  | tail _ hstep ih => exact ih.step hstep

/-- As long as no claim for it has failed, a task goes from pending to processing, and from there to its end. -/
theorem Inv.status_step (hs : s.Inv around faulty) (h : Step around faulty s s') {row : TaskRow}
    (hrow : row ∈ s'.tasks)
    (hrefused : ¬ s'.Refused row.id) : (∃ old ∈ s.tasks, old.id = row.id ∧ StatusStep old.status row.status) ∨
      s.service.db.lastTaskId < row.id ∧ row.status = TaskStatus.pending.text := by
  obtain ⟨i, w', hsweeps, -, hturn⟩ := h.turn hs.ids hs.tells
  by_cases hle : row.id ≤ s.service.db.lastTaskId
  · obtain ⟨old, hold, holdid, hcases⟩ := hturn.row hrow hle
    refine .inl ⟨old, hold, holdid, ?_⟩
    obtain hstatus | ⟨hp, hstatus⟩ | ⟨hcurrent, failure, hstatus⟩ := hcases <;> rw [hstatus]
    · exact .same _
    · rw [beq_iff_eq.mp hp]
      exact .taken
    · have hprocessing := hs.held hcurrent (fun hr => hrefused (refused_mono hsweeps hturn hr)) old hold holdid
      rw [hprocessing]
      exact .ended failure
  · obtain ⟨now, r, hmoves⟩ := hturn.moves s.service.clock
    refine .inr ⟨by omega, ?_⟩
    obtain ⟨old, hold, rfl⟩ | ⟨-, hstatus⟩ := hmoves.origin hrow
    · rw [TaskRow.id_under] at hle
      exact absurd (hs.ids.le old hold) hle
    · exact hstatus

theorem refused_of_step (hs : s.Inv around faulty) (h : Step around faulty s s') {id : Int} (hid : s.Refused id) :
    s'.Refused id := by
  obtain ⟨i, w', hsweeps, -, hturn⟩ := h.turn hs.ids hs.tells
  exact refused_mono hsweeps hturn hid

theorem last_le_of_run (hs : s.Inv around faulty) (h : Run around faulty s s') :
    s.service.db.lastTaskId ≤ s'.service.db.lastTaskId := by
  induction h with
  | refl => exact Nat.le_refl _
  | tail hrun hstep ih =>
    have hinv := hs.run hrun
    obtain ⟨i, w', -, -, hturn⟩ := hstep.turn hinv.ids hinv.tells
    obtain ⟨now, r, hmoves⟩ := hturn.moves s.service.clock
    exact Nat.le_trans ih hmoves.last_le

end Race
end Outreach
