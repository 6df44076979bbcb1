import Mathlib.Data.List.Nodup
import Outreach.Proofs.Attempts
import Outreach.Service.Basic

/-! What each request does to the table of tasks. Ids are given once, a claim takes a pending task, and no
request but a claim and an update changes a row that stays. -/
namespace Outreach

def Request.LeavesTasks : Request → Prop
  | .insertTask _ | .claimTask _ | .updateTask .. | .deleteAutomation _ => False
  | _ => True

namespace Database

def SameTasks (a b : Database) : Prop := a.tasks = b.tasks ∧ a.lastTaskId = b.lastTaskId

variable {db db' : Database}

theorem SameTasks.refl (db : Database) : db.SameTasks db := ⟨rfl, rfl⟩

theorem createAutomation_same {a : Automation} (h : db.createAutomation a = .ok db') : db'.SameTasks db := by
  unfold createAutomation at h
  split at h <;> cases h
  exact .refl _

theorem updateAutomation_same {a : Automation} (h : db.updateAutomation a = .ok db') : db'.SameTasks db := by
  unfold updateAutomation at h
  split at h <;> cases h
  exact .refl _

theorem mergeStats_same {id : Uuid} {delta : ExecutionStats} (h : db.mergeStats id delta = .ok db') :
    db'.SameTasks db := by
  unfold mergeStats at h
  split at h
  · cases h
  · rename_i r _
    cases hr : r.stats with
    | error e => rw [hr] at h; cases h
    | ok stats => rw [hr] at h; cases h; exact .refl _

theorem createContact_same {now : Instant} {c : NewContact} {contact : Contact}
    (h : db.createContact now c = .ok (contact, db')) : db'.SameTasks db := by
  unfold createContact at h
  dsimp only at h
  split at h <;> cases h
  exact .refl _

theorem updateContact_same {id : Int} {p : ContactPatch} (h : db.updateContact id p = .ok db') :
    db'.SameTasks db := by
  unfold updateContact at h
  split at h
  · cases h
  · rename_i r _
    cases hr : r.read with
    | error e => rw [hr] at h; cases h
    | ok old =>
      rw [hr] at h
      simp only [bind, Except.bind] at h
      split at h
      · cases h
        exact .refl _
      · split at h <;> cases h
        exact .refl _

theorem saveBoard_same (b : Board) : (db.saveBoard b).SameTasks db := by
  unfold saveBoard
  dsimp only
  split <;> exact .refl _

end Database

namespace Service
open Database

variable {around : Surroundings} {s : Service}

theorem storing_same {α : Type} {r : Except RepositoryError (α × Database)}
    (h : ∀ a db, r = .ok (a, db) → db.SameTasks s.db) : (s.storing r).2.db.SameTasks s.db := by
  cases r with
  | ok x => exact h x.1 x.2 rfl
  | error e => exact .refl _

theorem writing_same {r : Except RepositoryError Database} (h : ∀ db, r = .ok db → db.SameTasks s.db) :
    (s.writing r).2.db.SameTasks s.db := by
  cases r with
  | ok db => exact h db rfl
  | error e => exact .refl _

theorem draw_eq (n : Nat) (s : Service) : ∃ m seed, s.draw n = (m, { s with seed := seed }) := ⟨_, _, rfl⟩

theorem draw_same (n : Nat) : (s.draw n).2.db.SameTasks s.db := by
  obtain ⟨m, seed, h⟩ := draw_eq n s
  rw [h]
  exact .refl s.db

theorem answer_same {r : Request} (h : r.LeavesTasks) : (answer around r s).2.db.SameTasks s.db := by
  cases r with
  | createAutomation a => exact writing_same fun _ => createAutomation_same
  | updateAutomation a => exact writing_same fun _ => updateAutomation_same
  | mergeStats id delta => exact writing_same fun _ => mergeStats_same
  | createContact c => exact storing_same fun _ _ => createContact_same
  | updateContact id p => exact writing_same fun _ => updateContact_same
  | saveBoard b => exact saveBoard_same b
  | insertTask _ | claimTask _ | updateTask _ _ _ | deleteAutomation _ => exact h.elim
  | createConnection c =>
    simp only [answer, tick, freshId, keeping, createConnection]
    exact .refl _
  | freshToken =>
    simp only [answer, freshId]
    exact .refl _
  | pick n => exact draw_same n
  | setStatus id status =>
    simp only [answer, keeping, setStatus]
    exact .refl _
  | freshIdentity =>
    simp only [answer, tick, freshId]
    exact .refl _
  | getAutomation _ | listAutomations _ | getContact _ | findContact _ _ | findContactAnywhere _ | dueTasks _ =>
    exact .refl _
  | listBoards _ | allStages _ | getConnection _ | firstConnection _ | listConnections _ => exact .refl _
  | sendText _ _ _ _ => exact .refl _
  | sendTemplate _ _ _ _ => exact .refl _
  | sendFlow _ _ _ _ => exact .refl _
  | listTemplates _ _ => exact .refl _
  | sendHttp _ _ => exact .refl _
  | now =>
    simp only [answer, tick]
    exact .refl _
  | spawn _ => exact .refl _

end Service

theorem TaskStatus.text_inj {a b : TaskStatus} : a.text = b.text ↔ a = b := by
  cases a <;> cases b <;> simp [text]

theorem Database.isPending_of_status {row : TaskRow} {s : TaskStatus} (h : row.status = s.text)
    (hs : s ≠ .pending) :
    isPending row = false := by
  rw [← Bool.not_eq_true, isPending, beq_iff_eq, h]
  exact fun ht => hs (TaskStatus.text_inj.mp ht)

namespace TaskRow

def under (r : Request) (row : TaskRow) : TaskRow :=
  match r with
  | .claimTask id =>
    if row.id == id && Database.isPending row then { row with status := TaskStatus.processing.text } else row
  | .updateTask id status error =>
    if row.id == id then { row with status := status.text, errorMessage := error } else row
  | _ => row

theorem id_under (r : Request) (row : TaskRow) : (row.under r).id = row.id := by
  unfold under
  split
  · split <;> rfl
  · split <;> rfl
  · rfl

theorem under_of_leaves {r : Request} (h : r.LeavesTasks) (row : TaskRow) : row.under r = row := by
  cases r <;> first | rfl | exact h.elim

theorem under_claim {id : Int} {row : TaskRow} (hid : row.id = id) (h : Database.isPending row = true) :
    row.under (.claimTask id) = { row with status := TaskStatus.processing.text } :=
  if_pos (by simp [hid, h])

theorem under_claim_other {id : Int} {row : TaskRow} (h : row.id ≠ id ∨ Database.isPending row = false) :
    row.under (.claimTask id) = row := by
  refine if_neg ?_
  obtain h | h := h <;> simp [h]

theorem under_update {id : Int} {row : TaskRow} (hid : row.id = id) (status : TaskStatus) (error : Option String) :
    row.under (.updateTask id status error) = { row with status := status.text, errorMessage := error } :=
  if_pos (by simp [hid])

theorem under_update_other {id : Int} {row : TaskRow} (hid : row.id ≠ id) (status : TaskStatus)
    (error : Option String) : row.under (.updateTask id status error) = row :=
  if_neg (by simp [hid])

theorem read_id {row : TaskRow} {t : ScheduledTask} (h : row.read = .ok t) : t.id = row.id := by
  simp only [read, bind, Except.bind, pure, Except.pure] at h
  repeat' split at h
  all_goals first | (cases h; rfl) | cases h

end TaskRow

namespace Database
variable {db : Database}

structure TaskIds (db : Database) : Prop where
  nodup : (db.tasks.map (·.id)).Nodup
  le : ∀ row ∈ db.tasks, row.id ≤ db.lastTaskId

theorem TaskIds.unique (h : db.TaskIds) {a b : TaskRow} (ha : a ∈ db.tasks) (hb : b ∈ db.tasks)
    (hid : a.id = b.id) :
    a = b :=
  List.inj_on_of_nodup_map h.nodup ha hb hid

end Database

namespace Service
open Database

variable {around : Surroundings} {s s' : Service} {r : Request} {x : r.Reply}

theorem tick_fst (s : Service) : s.tick.1 = s.clock := by rw [tick]

theorem tick_db (s : Service) : s.tick.2.db = s.db := by simp only [tick]

/-- How the tasks come out of an answer at the time `now`: some rows stay, changed as the request says, and one
may be new. -/
inductive TasksMove (now : Instant) (r : Request) (a b : Database) : Prop where
  | stay (kept : List TaskRow) (sub : kept.Sublist a.tasks) (tasks : b.tasks = kept.map (TaskRow.under r))
    (last : b.lastTaskId = a.lastTaskId)
  | add (t : NewTask) (asked : r = .insertTask t)
    (tasks : b.tasks = a.tasks ++ [TaskRow.ofNew (a.lastTaskId + 1) now t]) (last : b.lastTaskId = a.lastTaskId + 1)

theorem tasksMove_of_same {now : Instant} {a b : Database} (h : ∀ row : TaskRow, row.under r = row)
    (hs : b.SameTasks a) : TasksMove now r a b := by
  refine .stay a.tasks (List.Sublist.refl _) ?_ hs.2
  rw [hs.1, List.map_congr_left fun row _ => h row, List.map_id']

theorem answer_moves (h : answer around r s = (x, s')) : TasksMove s.clock r s.db s'.db := by
  obtain rfl : (answer around r s).2 = s' := by rw [h]
  by_cases hr : r.LeavesTasks
  · exact tasksMove_of_same (TaskRow.under_of_leaves hr) (answer_same hr)
  · cases r with
    | insertTask t =>
      simp only [answer, tick_fst, tick_db, insertTask]
      split
      · exact .add t rfl rfl rfl
      · refine tasksMove_of_same (fun _ => rfl) ?_
        rw [storing, tick_db]
        exact .refl _
    | claimTask id => exact .stay s.db.tasks (List.Sublist.refl _) rfl rfl
    | updateTask id status error =>
      simp only [answer, updateTask, change]
      by_cases hany : s.db.tasks.any (·.id == id) = true
      · rw [hany]
        exact .stay s.db.tasks (List.Sublist.refl _) rfl rfl
      · have hnone : ∀ row ∈ s.db.tasks, row.under (.updateTask id status error) = row := by
          intro row hrow
          refine if_neg fun hid => hany ?_
          exact List.any_eq_true.mpr ⟨row, hrow, hid⟩
        rw [Bool.not_eq_true] at hany
        rw [hany]
        refine .stay s.db.tasks (List.Sublist.refl _) ?_ rfl
        rw [List.map_congr_left hnone, List.map_id']
        rfl
    | deleteAutomation id =>
      refine .stay (s.db.tasks.filter (·.automationId != id.text)) List.filter_sublist ?_ rfl
      have hid : TaskRow.under (.deleteAutomation id) = fun row => row := rfl
      rw [hid, List.map_id']
      rfl
    | _ => exact absurd trivial hr

section Moves
variable {now : Instant} {a b : Database}

theorem TasksMove.last_le (h : TasksMove now r a b) : a.lastTaskId ≤ b.lastTaskId := by
  cases h with
  | stay kept sub tasks last => omega
  | add t asked tasks last => omega

theorem TasksMove.origin (h : TasksMove now r a b) {row : TaskRow} (hrow : row ∈ b.tasks) :
    (∃ old ∈ a.tasks, row = old.under r) ∨ row.id = a.lastTaskId + 1 ∧ row.status = TaskStatus.pending.text := by
  cases h with
  | stay kept sub tasks last =>
    rw [tasks] at hrow
    obtain ⟨old, hold, rfl⟩ := List.mem_map.mp hrow
    exact .inl ⟨old, sub.subset hold, rfl⟩
  | add t asked tasks last =>
    rw [tasks] at hrow
    obtain hrow | hrow := List.mem_append.mp hrow
    · exact .inl ⟨row, hrow, by rw [asked]; rfl⟩
    · cases List.mem_singleton.mp hrow
      exact .inr ⟨rfl, rfl⟩

theorem TasksMove.ids (h : TasksMove now r a b) (ha : a.TaskIds) : b.TaskIds := by
  have hle := h.last_le
  cases h with
  | stay kept sub tasks last =>
    have hid : (kept.map (TaskRow.under r)).map (·.id) = kept.map (·.id) := by
      rw [List.map_map]
      exact List.map_congr_left fun row _ => TaskRow.id_under r row
    refine ⟨?_, fun row hrow => ?_⟩
    · rw [tasks, hid]
      exact ha.nodup.sublist (sub.map _)
    · rw [tasks] at hrow
      obtain ⟨old, hold, rfl⟩ := List.mem_map.mp hrow
      rw [TaskRow.id_under, last]
      exact ha.le old (sub.subset hold)
  | add t asked tasks last =>
    refine ⟨?_, fun row hrow => ?_⟩
    · rw [tasks, List.map_append, List.nodup_append]
      refine ⟨ha.nodup, by simp, fun id hid new hnew => ?_⟩
      obtain ⟨row, hrow, rfl⟩ := List.mem_map.mp hid
      have := ha.le row hrow
      obtain rfl : new = a.lastTaskId + 1 := by simpa [TaskRow.ofNew] using hnew
      omega
    · rw [tasks] at hrow
      obtain hrow | hrow := List.mem_append.mp hrow
      · have := ha.le row hrow
        omega
      · cases List.mem_singleton.mp hrow
        simp [TaskRow.ofNew, last]

end Moves

/-- A claim succeeds when the task is there and pending, and it never fails. -/
theorem answer_claim {id : Int} {x : Except RepositoryError Bool} (h : answer around (.claimTask id) s = (x, s')) :
    x = .ok (s.db.tasks.any fun row => row.id == id && isPending row) := by
  cases h
  rfl

theorem mapM_read_ids {rows : List TaskRow} {ts : List ScheduledTask} (h : rows.mapM TaskRow.read = .ok ts) :
    ts.map (·.id) = rows.map (·.id) :=
  map_of_mapM h fun _ _ _ hread => TaskRow.read_id hread

theorem dueTasks_nodup {now : Instant} {due : List ScheduledTask} {db : Database} (hids : db.TaskIds)
    (h : db.dueTasks now = .ok due) : (due.map (·.id)).Nodup := by
  rw [mapM_read_ids h, dueRows]
  refine ((List.mergeSort_perm _ _).map _).nodup_iff.mpr ?_
  exact hids.nodup.sublist (List.filter_sublist.map _)

end Service
end Outreach
