import Outreach.Proofs.Tasks.Table

/-! A service that is asked by many at once: what an answer shows and what it leaves behind, whatever the time, the
chance and the servers beyond may be by then. -/
namespace Outreach

def Surroundings.offline : Surroundings := ⟨.standard, .unreachable, 8⟩

def Request.IsFault : (r : Request) → r.Reply → Prop
  | .createAutomation _, x | .updateAutomation _, x | .mergeStats _ _, x => ∃ e, x = .error e
  | .updateContact _ _, x | .updateTask _ _ _, x | .saveBoard _, x => ∃ e, x = .error e
  | .getAutomation _, x => ∃ e, x = .error e
  | .listAutomations _, x => ∃ e, x = .error e
  | .setStatus _ _, x | .deleteAutomation _, x | .claimTask _, x => ∃ e, x = .error e
  | .getContact _, x | .findContact _ _, x | .findContactAnywhere _, x => ∃ e, x = .error e
  | .createContact _, x => ∃ e, x = .error e
  | .insertTask _, x => ∃ e, x = .error e
  | .dueTasks _, x => ∃ e, x = .error e
  | .listBoards _, x => ∃ e, x = .error e
  | .allStages _, x => ∃ e, x = .error e
  | .getConnection _, x | .firstConnection _, x => ∃ e, x = .error e
  | .listConnections _, x => ∃ e, x = .error e
  | .createConnection _, x => ∃ e, x = .error e
  | _, _ => False

namespace Service
open Database

def AnswersAt (around : Surroundings) (clock : Instant) (r : Request) (s : Service) (x : r.Reply)
    (s' : Service) : Prop :=
  ∃ (network : Network) (seed : Nat),
    answer { around with network := network } r { s with clock := clock, seed := seed } = (x, s')

def Answers (around : Surroundings) (r : Request) (s : Service) (x : r.Reply) (s' : Service) : Prop :=
  ∃ clock, AnswersAt around clock r s x s'

variable {around : Surroundings} {clock : Instant} {r : Request} {x : r.Reply} {s s' : Service}

theorem answers_answer (around : Surroundings) (r : Request) (s : Service) :
    Answers around r s (answer around r s).1 (answer around r s).2 :=
  ⟨s.clock, around.network, s.seed, rfl⟩

theorem AnswersAt.moves (h : AnswersAt around clock r s x s') : TasksMove clock r s.db s'.db := by
  obtain ⟨network, seed, h⟩ := h
  exact answer_moves h

theorem Answers.moves (h : Answers around r s x s') : ∃ now, TasksMove now r s.db s'.db := by
  obtain ⟨clock, h⟩ := h
  exact ⟨clock, h.moves⟩

theorem AnswersAt.now {x : Instant} (h : AnswersAt around clock .now s x s') : x = clock := by
  obtain ⟨network, seed, h⟩ := h
  simp only [answer, tick] at h
  exact (congrArg Prod.fst h).symm

theorem Answers.due {now : Instant} {x : Except RepositoryError (List ScheduledTask)}
    (h : Answers around (.dueTasks now) s x s') : x = s.db.dueTasks now := by
  obtain ⟨clock, network, seed, h⟩ := h
  cases h
  rfl

theorem Answers.claim {id : Int} {x : Except RepositoryError Bool} (h : Answers around (.claimTask id) s x s') :
    x = .ok (s.db.tasks.any fun row => row.id == id && isPending row) := by
  obtain ⟨clock, network, seed, h⟩ := h
  exact @answer_claim _ { s with clock := clock, seed := seed } s' id x h

theorem Answers.won {id : Int} (h : Answers around (.claimTask id) s (.ok true) s') :
    ∃ row ∈ s.db.tasks, row.id = id ∧ isPending row = true := by
  obtain ⟨row, hrow, hp⟩ := List.any_eq_true.mp (Except.ok.inj h.claim).symm
  exact ⟨row, hrow, by simpa using hp⟩

theorem Answers.lost {id : Int} (h : Answers around (.claimTask id) s (.ok false) s') :
    ∃ now, TasksMove now .now s.db s'.db := by
  obtain ⟨now, hmoves⟩ := h.moves
  have hany := Except.ok.inj h.claim
  have hnone : ∀ row ∈ s.db.tasks, row.under (.claimTask id) = row := by
    intro row hrow
    refine if_neg fun hp => ?_
    have hyes : (s.db.tasks.any fun row => row.id == id && isPending row) = true :=
      List.any_eq_true.mpr ⟨row, hrow, hp⟩
    rw [hyes] at hany
    cases hany
  refine ⟨now, ?_⟩
  cases hmoves with
  | stay kept sub tasks last =>
    refine .stay kept sub ?_ last
    rw [tasks]
    exact List.map_congr_left fun row hrow => hnone row (sub.subset hrow)
  | add t asked => cases asked

/-- A new task comes last, with the next id, or nothing is stored. -/
theorem Answers.insert {t : NewTask} {x : Except RepositoryError Int} (h : Answers around (.insertTask t) s x s') :
    (x = .ok (s.db.lastTaskId + 1) ∧ s'.db.lastTaskId = s.db.lastTaskId + 1 ∧
      ∃ now, s'.db.tasks = s.db.tasks ++ [TaskRow.ofNew (s.db.lastTaskId + 1) now t]) ∨
    ∃ e, x = .error e ∧ s'.db.lastTaskId = s.db.lastTaskId ∧ s'.db.tasks = s.db.tasks := by
  obtain ⟨clock, network, seed, h⟩ := h
  simp only [answer, tick_fst, tick_db, insertTask] at h
  split at h
  · cases h
    exact .inl ⟨rfl, rfl, clock, rfl⟩
  · cases h
    exact .inr ⟨_, rfl, by rw [tick_db], by rw [tick_db]⟩

theorem Answers.inserted {t : NewTask} {id : Int} (h : Answers around (.insertTask t) s (.ok id) s') :
    ∃ now, s'.db.tasks = s.db.tasks ++ [TaskRow.ofNew id now t] := by
  obtain ⟨hid, -, hnew⟩ | ⟨e, herror, -⟩ := h.insert
  · cases hid
    exact hnew
  · cases herror

section Writing
variable {y : Except RepositoryError Database}

theorem writing_eq_ok {u : Unit} (h : s.writing y = (.ok u, s')) : ∃ db, y = .ok db ∧ s' = { s with db := db } := by
  cases y with
  | ok db =>
    cases h
    exact ⟨db, rfl, rfl⟩
  | error e => cases h

theorem writing_eq_error {e : RepositoryError} (h : s.writing y = (.error e, s')) : s' = s := by
  cases y with
  | ok db => cases h
  | error e =>
    cases h
    rfl

end Writing

section Forwarded

theorem storing_forwarded {α : Type} (y : Except RepositoryError (α × Database)) :
    (s.storing y).2.forwarded = s.forwarded := by
  cases y <;> rfl

theorem tick_forwarded (s : Service) : s.tick.2.forwarded = s.forwarded := by simp only [tick]

theorem answer_forwarded (around : Surroundings) (r : Request) (s : Service) :
    (answer around r s).2.forwarded = s.forwarded ∨
      ∃ run, r = .spawn run ∧ (answer around r s).2.forwarded = s.forwarded ++ [run] := by
  cases r with
  | spawn run => exact .inr ⟨run, rfl, rfl⟩
  | createAutomation a => exact .inl (storing_forwarded _)
  | updateAutomation a => exact .inl (storing_forwarded _)
  | mergeStats id delta => exact .inl (storing_forwarded _)
  | updateContact id p => exact .inl (storing_forwarded _)
  | updateTask id status error => exact .inl (storing_forwarded _)
  | createContact c =>
    refine .inl ?_
    simp only [answer]
    rw [storing_forwarded, tick_forwarded]
  | insertTask t =>
    refine .inl ?_
    simp only [answer]
    rw [storing_forwarded, tick_forwarded]
  | createConnection c =>
    refine .inl ?_
    simp only [answer, tick, freshId, keeping]
  | pick n =>
    obtain ⟨m, seed, hdraw⟩ := draw_eq (s := s) n
    exact .inl (by rw [answer, hdraw])
  | now => exact .inl (by simp only [answer, tick])
  | freshToken => exact .inl (by simp only [answer, freshId])
  | freshIdentity => exact .inl (by simp only [answer, tick, freshId])
  | _ => exact .inl rfl

theorem AnswersAt.forwarded (h : AnswersAt around clock r s x s') :
    s'.forwarded = s.forwarded ∨ ∃ run, r = .spawn run ∧ s'.forwarded = s.forwarded ++ [run] := by
  obtain ⟨network, seed, h⟩ := h
  have hanswer := answer_forwarded { around with network := network } r { s with clock := clock, seed := seed }
  rwa [h] at hanswer

end Forwarded
end Service
end Outreach
