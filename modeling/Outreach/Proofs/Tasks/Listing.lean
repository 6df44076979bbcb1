import Outreach.Proofs.Tasks.Due

/-! What a listing of the due tasks holds and in which order, when it succeeds. -/
namespace Outreach
open Database QueuedTask

/-- The pending rows are listed whose text is not after that of the time, in the order of these texts and then of the
ids, each as the task that it shows. Where the rows are those of tasks that were stored and the present year has four
digits, these are the tasks whose time has come, in the order of time and then of the ids. -/
structure Database.Lists (db : Database) (now : Instant) (due : List ScheduledTask) : Prop where
  read : List.Forall₂ (fun row t => row.read = .ok t) (db.dueRows now) due
  mem : ∀ row, row ∈ db.dueRows now ↔ row ∈ db.tasks ∧ isPending row = true ∧ row.executeAt ≤ now.microsText
  ordered : (db.dueRows now).Pairwise fun a b => a.executeAt < b.executeAt ∨ a.executeAt = b.executeAt ∧ a.id < b.id
  timely : ∀ q, db.tasks = q.map row → (∀ e ∈ q, e.IsProper) → now.Ordinary → now.IsPlain →
    due = (QueuedTask.due now q).map QueuedTask.shown ∧ due.Pairwise fun t u =>
      u.executeAt.le t.executeAt = false ∨ t.executeAt = u.executeAt ∧ t.id < u.id

variable {db : Database} {now : Instant} {due : List ScheduledTask}

theorem Database.mem_dueRows {row : TaskRow} : row ∈ db.dueRows now ↔
    row ∈ db.tasks ∧ isPending row = true ∧ row.executeAt ≤ now.microsText := by
  rw [dueRows, (List.mergeSort_perm _ _).mem_iff, List.mem_filter]
  simp

theorem Database.TaskIds.dueRows_nodup (hids : db.TaskIds) (now : Instant) : ((db.dueRows now).map (·.id)).Nodup :=
  ((List.mergeSort_perm _ _).map _).nodup_iff.mpr (hids.nodup.sublist (List.filter_sublist.map _))

/-- Ids are different, so the order of the texts and the ids is strict. -/
theorem Database.TaskIds.dueRows_ordered (hids : db.TaskIds) (now : Instant) : (db.dueRows now).Pairwise fun a b =>
    a.executeAt < b.executeAt ∨ a.executeAt = b.executeAt ∧ a.id < b.id := by
  have hsorted : (db.dueRows now).Pairwise fun a b : TaskRow =>
      (a.executeAt < b.executeAt || (a.executeAt == b.executeAt && a.id ≤ b.id)) = true := by
    refine List.pairwise_mergeSort (fun a b c hab hbc => ?_) (fun a b => ?_) _
    · simp only [Bool.or_eq_true, Bool.and_eq_true, decide_eq_true_eq, beq_iff_eq] at *
      grind
    · simp only [Bool.or_eq_true, Bool.and_eq_true, decide_eq_true_eq, beq_iff_eq] at *
      grind
  refine (hsorted.and (List.pairwise_map.mp (hids.dueRows_nodup now))).imp fun {a b} hab => ?_
  simp only [Bool.or_eq_true, Bool.and_eq_true, decide_eq_true_eq, beq_iff_eq] at hab
  obtain ⟨hlt | ⟨heq, hle⟩, hne⟩ := hab
  · exact .inl hlt
  · exact .inr ⟨heq, lt_of_le_of_ne hle hne⟩

theorem Instant.year_le_of_le {t u : Instant} (h : t.toMicros.le u.toMicros = true) : t.year ≤ u.year := by
  obtain hlt | hlt | heq := earlier_or t u
  · exact year_le_of_earlier hlt
  · exact absurd hlt ((le_iff_not_earlier t u).mp h)
  · rw [← year_toMicros t, heq, year_toMicros]

namespace QueuedTask
variable {q : List QueuedTask}

/-- A listing that succeeds in a year of four digits has no year above them among its tasks, so text and time agree. -/
theorem textDue_eq_due (hnow : now.Ordinary) (hplain : now.IsPlain) (hq : ∀ e ∈ q, e.IsProper)
    (hlegible : ∀ e ∈ textDue now q, e.IsLegible) : textDue now q = QueuedTask.due now q := by
  have hagrees : ∀ e ∈ q, e.status = .pending →
      (e.task.executeAt.microsText ≤ now.microsText ↔ e.task.executeAt.toMicros.le now.toMicros = true) := by
    intro e he hpending
    have hiff := Instant.microsText_le_iff (hq e he).executeAt.nanos hnow.nanos
    by_cases hyear : e.task.executeAt.year ≤ 9999
    · exact hiff.mpr ((Instant.agreesWith_iff hplain).mpr hyear)
    · -- such a row is not due yet, and listed by its text it could not be read
      have htext : ¬ e.task.executeAt.microsText ≤ now.microsText :=
        fun htext => hyear (hlegible e (mem_textDue.mpr ⟨he, hpending, htext⟩)).executeAt.2
      exact iff_of_false htext fun htime => hyear ((Instant.year_le_of_le htime).trans hplain.2)
  refine textDue_eq hagrees fun a ha b hb => ?_
  have hlisted {e : QueuedTask} (he : e ∈ QueuedTask.due now q) : e ∈ q ∧ e.IsLegible := by
    obtain ⟨he, hpending, hdue⟩ := mem_due.mp he
    exact ⟨he, hlegible e (mem_textDue.mpr ⟨he, hpending, (hagrees e he hpending).mpr hdue⟩)⟩
  obtain ⟨hqa, hla⟩ := hlisted ha
  obtain ⟨hqb, hlb⟩ := hlisted hb
  exact textBefore_eq (hq a hqa).executeAt (hq b hqb).executeAt hla.executeAt hlb.executeAt

end QueuedTask

theorem Database.TaskIds.lists (hids : db.TaskIds) (h : db.dueTasks now = .ok due) : db.Lists now due where
  read := mapM_eq_ok.mp h
  mem _ := mem_dueRows
  ordered := hids.dueRows_ordered now
  timely q hdb hq hnow hplain := by
    obtain ⟨hlegible, rfl⟩ := (dueTasks_eq_ok hdb hq).mp h
    have htext := textDue_eq_due hnow hplain hq hlegible
    refine ⟨by rw [htext], List.pairwise_map.mpr ?_⟩
    have hrows := (hids.dueRows_ordered now).and (List.pairwise_map.mp (hids.dueRows_nodup now))
    rw [dueRows_eq hdb, List.pairwise_map] at hrows
    refine hrows.imp_of_mem fun {a b} ha hb hab => ?_
    obtain ⟨htexts, hne⟩ := hab
    have hproper {e : QueuedTask} (he : e ∈ textDue now q) := (hq e (mem_textDue.mp he).1).executeAt
    have hbefore : before a b = true := by
      rw [← textBefore_eq (hproper ha) (hproper hb) (hlegible a ha).executeAt (hlegible b hb).executeAt]
      simp only [textBefore, Bool.or_eq_true, Bool.and_eq_true, decide_eq_true_eq, beq_iff_eq]
      exact htexts.imp_right fun h => ⟨h.1, h.2.le⟩
    simp only [before, Bool.or_eq_true, Bool.and_eq_true, Bool.not_eq_true', decide_eq_true_eq, beq_iff_eq] at hbefore
    exact hbefore.imp_right fun h => ⟨h.1, lt_of_le_of_ne h.2 hne⟩

end Outreach
