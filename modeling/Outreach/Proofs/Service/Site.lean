import Outreach.Proofs.Engine.Contexts
import Outreach.Proofs.Service.Answers
import Outreach.Proofs.Tasks.Queue

/-! A site at work: webhooks, messages, sweeps and forwarded runs in any order of their steps, beside whatever else
is asked of the service. Its tasks are always a queue of properly stored ones. -/
namespace Outreach
open Service Database

structure Site where
  service : Service
  running : List (Program Unit)

namespace Site

inductive Duty (around : Surroundings) : Program Unit → Prop where
  | intake (webhookId : String) {text : String} {body : Json} (parsed : Json.parse? text = some body) :
    Duty around do let _ ← (Intake.handle around.settings around.limit webhookId body).run
  | inbox (n : Notification) : Duty around do let _ ← Inbox.process around.settings around.limit n
  | fire {event : Event} (ordered : event.IsOrdered) (contactId : Int) (scope : Scope) :
    Duty around do let _ ← (fire around.settings around.limit event contactId scope).run
  | sweep : Duty around do let _ ← (sweep around.settings around.limit).run

/-- A duty begins, a program under way goes on, a forwarded run begins, or something else is asked, which neither
stores tasks nor forwards. -/
inductive Step (around : Surroundings) : Site → Site → Prop where
  | begin {s : Site} {p : Program Unit} (duty : Duty around p) : Step around s ⟨s.service, s.running ++ [p]⟩
  | advance {s : Site} {service : Service} {clock : Instant} {r : Request} {x : r.Reply} (i : Nat)
    {next : r.Reply → Program Unit} (asks : s.running[i]? = some (.ask r next)) (ordinary : clock.Ordinary)
    (answers : AnswersAt around clock r s.service x service) : Step around s ⟨service, s.running.set i (next x)⟩
  | forwarded {s : Site} {run : ForwardedRun} {rest : List ForwardedRun}
    (waits : s.service.forwarded = run :: rest) :
    Step around s ⟨{ s.service with forwarded := rest }, s.running ++ [run.execute around.settings around.limit]⟩
  | elsewhere {s : Site} {service : Service} {clock : Instant} {r : Request} {x : r.Reply}
    (stores : ∀ t, r ≠ .insertTask t) (forwards : ∀ run, r ≠ .spawn run) (ordinary : clock.Ordinary)
    (answers : AnswersAt around clock r s.service x service) : Step around s ⟨service, s.running⟩

def Run (around : Surroundings) : Site → Site → Prop := Relation.ReflTransGen (Step around)

section Playing
variable (around : Surroundings)

def turn (s : Site) (i : Nat) : Site :=
  match s.running[i]? with
  | some (.ask r next) =>
    if s.service.clock.Ordinary then
      let (x, service) := answer around r s.service
      ⟨service, s.running.set i (next x)⟩
    else s
  | _ => s

def play (s : Site) (turns : List Nat) : Site := turns.foldl (turn around) s

variable {around}

theorem run_turn (s : Site) (i : Nat) : Run around s (s.turn around i) := by
  unfold turn
  split
  · rename_i r next asks
    split
    · exact .single (.advance i asks ‹_› ⟨around.network, s.service.seed, rfl⟩)
    · exact .refl
  · exact .refl

theorem run_play (s : Site) (turns : List Nat) : Run around s (s.play around turns) := by
  induction turns generalizing s with
  | nil => exact .refl
  | cons i turns ih => exact (run_turn s i).trans (ih _)

end Playing

structure IsFresh (s : Site) : Prop where
  tasks : s.service.db.tasks = []
  forwarded : s.service.forwarded = []
  running : s.running = []

variable {around : Surroundings} {s s' : Site}

theorem Duty.meets {p : Program Unit} (h : Duty around p) : p.Meets .engine fun _ => True := by
  cases h with
  | intake webhookId parsed =>
    have hbody := Json.parse?_canonical parsed
    exact Program.meets_bind (Intake.handle_meets around.settings around.limit webhookId hbody) fun _ _ => trivial
  | inbox n => exact Program.meets_bind (Inbox.process_meets around.settings around.limit n) fun _ _ => trivial
  | fire ordered contactId scope =>
    exact Program.meets_bind (fire_meets around.settings around.limit ordered contactId scope) fun _ _ => trivial
  | sweep => exact Program.meets_bind (sweep_meets around.settings around.limit) fun _ _ => trivial

end Site

def TaskRow.IsQueued (row : TaskRow) : Prop := ∃ e : QueuedTask, e.IsProper ∧ row = e.row

theorem TaskRow.IsQueued.under {row : TaskRow} (h : row.IsQueued) (r : Request) : (row.under r).IsQueued := by
  obtain ⟨e, he, rfl⟩ := h
  unfold TaskRow.under
  split
  · split
    · exact ⟨{ e with status := .processing }, ⟨he.storedAt, he.executeAt, he.context⟩, rfl⟩
    · exact ⟨e, he, rfl⟩
  · rename_i id status error
    split
    · exact ⟨{ e with status := status, error := error }, ⟨he.storedAt, he.executeAt, he.context⟩, rfl⟩
    · exact ⟨e, he, rfl⟩
  · exact ⟨e, he, rfl⟩

theorem exists_queue {rows : List TaskRow} (h : ∀ row ∈ rows, row.IsQueued) :
    ∃ q : List QueuedTask, rows = q.map QueuedTask.row ∧ ∀ e ∈ q, e.IsProper := by
  induction rows with
  | nil => exact ⟨[], rfl, List.forall_mem_nil _⟩
  | cons row rows ih =>
    obtain ⟨⟨e, he, rfl⟩, hrows⟩ := List.forall_mem_cons.mp h
    obtain ⟨q, rfl, hq⟩ := ih hrows
    exact ⟨e :: q, rfl, List.forall_mem_cons.mpr ⟨he, hq⟩⟩

theorem Service.TasksMove.queued {now : Instant} {r : Request} {a b : Database} (h : TasksMove now r a b)
    (ha : ∀ row ∈ a.tasks, row.IsQueued) (hnow : now.Ordinary)
    (hr : ∀ t, r = .insertTask t → t.executeAt.Ordinary ∧ t.context.Canonical) :
    ∀ row ∈ b.tasks, row.IsQueued := by
  intro row hrow
  cases h with
  | stay kept sub tasks last =>
    rw [tasks] at hrow
    obtain ⟨old, hold, rfl⟩ := List.mem_map.mp hrow
    exact (ha old (sub.subset hold)).under r
  | add t asked tasks last =>
    rw [tasks] at hrow
    obtain hrow | hrow := List.mem_append.mp hrow
    · exact ha row hrow
    · cases List.mem_singleton.mp hrow
      obtain ⟨htime, hcontext⟩ := hr t asked
      exact ⟨⟨a.lastTaskId + 1, now, t, .pending, none⟩, ⟨hnow, htime, hcontext⟩, rfl⟩

/-- The context of a task is what the text in its row is read as. -/
theorem TaskRow.read_context {row : TaskRow} {t : ScheduledTask} (h : row.read = .ok t) :
    Decode.ofText Decode.json row.context = .ok t.context := by
  have hdocument {j : Json} (hj : Stored.document "context" Decode.json row.context = .ok j) :
      Decode.ofText Decode.json row.context = .ok j := by
    unfold Stored.document at hj
    split at hj
    · rename_i hok
      cases hj
      exact hok
    · cases hj
  simp only [read, bind, Except.bind, pure, Except.pure] at h
  repeat' split at h
  all_goals first | (cases h; exact hdocument ‹_›) | cases h

theorem TaskRow.read_canonical {row : TaskRow} {t : ScheduledTask} (h : row.read = .ok t) : t.context.Canonical :=
  Json.ofText_canonical (row.read_context h)

theorem Service.dueTasks_canonical {now : Instant} {db : Database} {due : List ScheduledTask}
    (h : db.dueTasks now = .ok due) : ∀ t ∈ due, t.context.Canonical := by
  intro t ht
  obtain ⟨row, -, hread⟩ := mem_of_mapM h t ht
  exact row.read_canonical hread

namespace Site
variable {around : Surroundings} {s s' : Site}

structure Inv (s : Site) : Prop where
  ids : s.service.db.TaskIds
  queued : ∀ row ∈ s.service.db.tasks, row.IsQueued
  running : ∀ p ∈ s.running, p.Meets .engine fun _ => True
  forwarded : ∀ run ∈ s.service.forwarded, run.eventContext.Canonical

theorem inv_of_fresh (h : s.IsFresh) : s.Inv where
  ids := ⟨by simp [h.tasks], by simp [h.tasks]⟩
  queued := by simp [h.tasks]
  running := by simp [h.running]
  forwarded := by simp [h.forwarded]

/-- Answers of the service are such as the terms of the engine have them. -/
theorem answers_engine {clock : Instant} {r : Request} {x : r.Reply} {a b : Service}
    (h : AnswersAt around clock r a x b) (hclock : clock.Ordinary) : Terms.engine.answers r x := by
  cases r with
  | now =>
    cases h.now
    exact hclock
  | dueTasks now =>
    intro due hdue
    have hlist : x = a.db.dueTasks now := Answers.due ⟨clock, h⟩
    exact dueTasks_canonical (hlist.symm.trans hdue)
  | _ => trivial

theorem Inv.answer {clock : Instant} {r : Request} {x : r.Reply} {b : Service} (hs : s.Inv)
    (h : AnswersAt around clock r s.service x b) (hclock : clock.Ordinary) (hr : Terms.engine.asks r)
    {running : List (Program Unit)} (hrunning : ∀ p ∈ running, p.Meets .engine fun _ => True) :
    Inv ⟨b, running⟩ where
  ids := h.moves.ids hs.ids
  queued := h.moves.queued hs.queued hclock (by rintro t rfl; exact hr)
  running := hrunning
  forwarded := by
    obtain hsame | ⟨run, rfl, hnew⟩ := h.forwarded
    · rw [hsame]
      exact hs.forwarded
    · rw [hnew]
      exact List.forall_mem_append.mpr ⟨hs.forwarded, List.forall_mem_singleton.mpr hr⟩

theorem Inv.step (hs : s.Inv) (h : Step around s s') : s'.Inv := by
  cases h with
  | begin duty =>
    refine ⟨hs.ids, hs.queued, ?_, hs.forwarded⟩
    exact List.forall_mem_append.mpr ⟨hs.running, List.forall_mem_singleton.mpr duty.meets⟩
  | advance i asks ordinary answers =>
    obtain ⟨hr, hnext⟩ := hs.running _ (List.mem_of_getElem? asks)
    refine hs.answer answers ordinary hr fun p hp => ?_
    obtain hp | rfl := List.mem_or_eq_of_mem_set hp
    · exact hs.running p hp
    · exact hnext _ (answers_engine answers ordinary)
  | forwarded waits =>
    have hforwarded := hs.forwarded
    rw [waits] at hforwarded
    obtain ⟨hrun, hrest⟩ := List.forall_mem_cons.mp hforwarded
    refine ⟨hs.ids, hs.queued, ?_, hrest⟩
    exact List.forall_mem_append.mpr
      ⟨hs.running, List.forall_mem_singleton.mpr (ForwardedRun.execute_meets _ _ hrun)⟩
  | elsewhere stores forwards ordinary answers =>
    refine hs.answer answers ordinary ?_ hs.running
    rename_i r _
    cases r with
    | insertTask t => exact absurd rfl (stores t)
    | spawn run => exact absurd rfl (forwards run)
    | _ => trivial

theorem Inv.run (hs : s.Inv) (h : Run around s s') : s'.Inv := by
  induction h with
  | refl => exact hs
  | tail _ hstep ih => exact ih.step hstep

end Site
end Outreach
