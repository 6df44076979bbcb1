import Outreach.Database.Basic
import Outreach.Proofs.Json.Reading
import Outreach.Proofs.Time.Reading
import Outreach.Proofs.Uuid

/-! The table of tasks as a queue: each row comes from a task that was stored at some time, and shows what
became of it. A row is read back as long as its years have four digits and its context can be read. -/
namespace Outreach

theorem TaskStatus.parse_text (s : TaskStatus) : parse s.text = .ok s := by cases s <;> rfl

def Instant.IsPlain (t : Instant) : Prop := 0 ≤ t.year ∧ t.year ≤ 9999

instance (t : Instant) : Decidable t.IsPlain := inferInstanceAs (Decidable (0 ≤ t.year ∧ t.year ≤ 9999))

structure QueuedTask where
  id : Int
  storedAt : Instant
  task : NewTask
  status : TaskStatus
  error : Option String

namespace QueuedTask

def row (e : QueuedTask) : TaskRow :=
  { TaskRow.ofNew e.id e.storedAt e.task with status := e.status.text, errorMessage := e.error }

/-- The task as it is meant to be read: times to the microsecond, and all else as it was stored. -/
def view (e : QueuedTask) : ScheduledTask :=
  { id := e.id
    userId := e.task.userId
    contactId := e.task.contactId
    automationId := e.task.automationId
    connectionId := e.task.connectionId
    resumeFromNodeId := e.task.resumeFromNodeId
    executeAt := e.task.executeAt.toMicros
    context := e.task.context
    status := e.status
    errorMessage := e.error
    createdAt := e.storedAt.toMicros }

structure IsProper (e : QueuedTask) : Prop where
  storedAt : e.storedAt.Ordinary
  executeAt : e.task.executeAt.Ordinary
  context : e.task.context.Canonical

structure IsLegible (e : QueuedTask) : Prop where
  storedAt : e.storedAt.IsPlain
  executeAt : e.task.executeAt.IsPlain
  depth : e.task.context.depth ≤ Json.depthLimit
  numbers : ∀ n ∈ e.task.context.numbers, n.reread?.isSome = true

variable {e : QueuedTask}

theorem instant_microsText {t : Instant} (h : t.Ordinary) :
    Stored.instant t.microsText = if t.IsPlain then .ok t.toMicros else .error (.query "invalid datetime") := by
  rw [Stored.instant, Instant.ofText?_microsText h]
  by_cases hp : 0 ≤ t.year ∧ t.year ≤ 9999 <;> simp [Instant.IsPlain, hp]

theorem document_text {j : Json} (h : j.Canonical) : Stored.document "context" Decode.json j.text =
    match j.reading? with
    | some v => .ok v
    | none => .error (.query "invalid context JSON") := by
  rw [Stored.document, Json.ofText_text h]
  cases j.reading? <;> rfl

theorem read_row_iff (h : e.IsProper) {t : ScheduledTask} : e.row.read = .ok t ↔
    e.storedAt.IsPlain ∧ e.task.executeAt.IsPlain ∧
      ∃ j, e.task.context.reading? = some j ∧ t = { e.view with context := j } := by
  have hstatus : Stored.named (TaskStatus.parse e.status.text) = .ok e.status := by rw [TaskStatus.parse_text]; rfl
  have huuid (u : Uuid) : Stored.uuid u.text = .ok u := by rw [Stored.uuid, Uuid.parse?_text]
  simp only [row, TaskRow.read, TaskRow.ofNew, hstatus, huuid, instant_microsText h.executeAt,
    instant_microsText h.storedAt, document_text h.context, bind, Except.bind, pure, Except.pure]
  by_cases ht : e.task.executeAt.IsPlain
  · cases hj : e.task.context.reading? with
    | none => simp [ht]
    | some j =>
      by_cases hs : e.storedAt.IsPlain
      · simp [ht, hs, view, eq_comm]
      · simp [ht, hs]
  · simp [ht]

theorem reads_iff (h : e.IsProper) : (∃ t, e.row.read = .ok t) ↔ e.IsLegible := by
  simp only [read_row_iff h]
  constructor
  · rintro ⟨t, hs, ht, j, hj, -⟩
    have hsome := Json.reading?_isSome.mp (Option.isSome_of_eq_some hj)
    exact ⟨hs, ht, hsome.1, hsome.2⟩
  · rintro ⟨hs, ht, hdepth, hnumbers⟩
    obtain ⟨j, hj⟩ := Option.isSome_iff_exists.mp (Json.reading?_isSome.mpr ⟨hdepth, hnumbers⟩)
    exact ⟨_, hs, ht, j, hj, rfl⟩

/-- The row shows the very task exactly when it is legible and each number in it is read back. -/
theorem read_row_eq_view (h : e.IsProper) : e.row.read = .ok e.view ↔
    e.storedAt.IsPlain ∧ e.task.executeAt.IsPlain ∧ e.task.context.depth ≤ Json.depthLimit ∧
      ∀ n ∈ e.task.context.numbers, n.reread? = some n := by
  rw [read_row_iff h, ← Json.reading?_eq_self]
  constructor
  · rintro ⟨hs, ht, j, hj, hview⟩
    have hcontext : e.task.context = j := congrArg ScheduledTask.context hview
    rw [hj, hcontext]
    exact ⟨hs, ht, rfl⟩
  · rintro ⟨hs, ht, hj⟩
    exact ⟨hs, ht, _, hj, rfl⟩

end QueuedTask
end Outreach
