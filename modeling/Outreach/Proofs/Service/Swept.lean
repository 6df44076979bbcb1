import Outreach.Proofs.Service.Settling
import Outreach.Proofs.Sweep.AtMostOnce

/-! A sweep that is let go on by itself, with the runs that it forwards. It comes to its end unless a run goes on without
one, and in the end it has settled what it listed, and nothing else. -/
namespace Outreach
open Service Database

namespace Scene
variable {around : Surroundings} {service : Service} {moves : List Move} {s : Scene}

/-- Only a sweep that has settled what it listed, or that could not list anything, has come to its end. -/
theorem settled_of_done (hids : service.db.TaskIds) (hwaits : service.forwarded = []) (hmoves : ∀ o, .begin o ∉ moves)
    (hs : s = (of around service .sweep).play around moves) {x : Upshot} (hended : s.running[0]? = some (.done x)) :
    (∃ now e, x = .swept (.error ⟨e⟩) ∧ ⟨.dueTasks now, .error e⟩ ∈ s.log ∧ s.service.db = service.db) ∨
    ∃ now due summary, service.db.dueTasks now = .ok due ∧ x = .swept (.ok summary) ∧
      s.Settles around service.db now due summary := by
  obtain ⟨φ, log, halone, hφ⟩ | ⟨now, e, hfailed⟩ | ⟨now, due, s₁, later, hdue, hlisted, hlater, hplay⟩ :=
    opening hwaits hmoves hs
  · rw [halone.running] at hended
    obtain rfl | ⟨now, rfl⟩ := hφ <;> cases hended
  · rw [hfailed.running] at hended
    cases hended
    exact .inl ⟨now, e, rfl, by simp [hfailed.told], hfailed.store⟩
  · obtain ⟨summary, rfl, hsettles⟩ := hlisted.settles hids hdue hlater hplay hended
    exact .inr ⟨now, due, summary, hdue, rfl, hsettles⟩

/-- Only the run of a task that was due keeps a sweep from coming to its end. -/
theorem sticks_of_endless (hwaits : service.forwarded = []) (hmoves : ∀ o, .begin o ∉ moves)
    (hs : s = (of around service .sweep).play around moves) (hstuck : s.running[0]? = some .endless) :
    ∃ now due, service.db.dueTasks now = .ok due ∧ ∃ t ∈ due, ∃ part, part.Sublist s.log ∧
      (t.resume around.settings around.limit).run.Sticks part := by
  obtain ⟨φ, log, halone, hφ⟩ | ⟨now, e, hfailed⟩ | ⟨now, due, s₁, later, hdue, hlisted, hlater, hplay⟩ :=
    opening hwaits hmoves hs
  · rw [halone.running] at hstuck
    obtain rfl | ⟨now, rfl⟩ := hφ <;> cases hstuck
  · rw [hfailed.running] at hstuck
    cases hstuck
  · obtain ⟨own, hgoes, hsub, -⟩ := hlisted.exists_own hlater hplay hstuck
    have hsticks := hgoes.sticks
    rw [upshot_goOn] at hsticks
    obtain hsettling | ⟨summary, l₁, l₂, -, -, hdone⟩ := Program.sticks_bind.mp hsticks
    · obtain ⟨t, ht, part, hpart, hresume⟩ := ScheduledTask.sticks_of_settleAll hsettling
      have hown : own.Sublist s.log := (List.sublist_cons_of_sublist _ (List.sublist_cons_self _ _)).trans hsub
      exact ⟨now, due, hdue, t, ht, part, hpart.trans hown, hresume⟩
    · exact hdone.elim

/-- A sweep beside which nothing else begins, with its steps and those of the runs that it forwards in any order. When it
has come to its end, it has settled what was due by its listing; a sweep that could not list anything has changed nothing.
And from wherever it stands, it comes to its end if it is answered often enough, unless the run of a task that was due goes
on without one. -/
theorem sweep_settles (hids : service.db.TaskIds) (hwaits : service.forwarded = []) (hmoves : ∀ o, .begin o ∉ moves)
    (hs : s = (of around service .sweep).play around moves) :
    (∀ x, s.running[0]? = some (.done x) →
      (∃ now e, x = .swept (.error ⟨e⟩) ∧ ⟨.dueTasks now, .error e⟩ ∈ s.log ∧ s.service.db = service.db) ∨
      ∃ now due summary, service.db.dueTasks now = .ok due ∧ x = .swept (.ok summary) ∧
        s.Settles around service.db now due summary) ∧
    ∀ clock network seed, ∃ n s', s' = s.play around (.replicate n (.answer 0 clock network seed)) ∧
      ((∃ x, s'.running[0]? = some (.done x)) ∨ ∃ now due, service.db.dueTasks now = .ok due ∧
        ∃ t ∈ due, ∃ part, part.Sublist s'.log ∧ (t.resume around.settings around.limit).run.Sticks part) := by
  refine ⟨fun x => settled_of_done hids hwaits hmoves hs, fun clock network seed => ?_⟩
  obtain ⟨own, htrail⟩ := (Trail.start (s := of around service .sweep) rfl).play around hmoves
  rw [← hs] at htrail
  obtain ⟨p, rest, hrunning, -⟩ := htrail.running
  obtain ⟨n, q, hq, hend⟩ := exists_end around clock network seed hrunning
  refine ⟨n, _, rfl, ?_⟩
  obtain rfl | ⟨x, rfl⟩ := hend
  · have hall : ∀ o, .begin o ∉ moves ++ List.replicate n (Move.answer 0 clock network seed) := by
      intro o ho
      obtain ho | ho := List.mem_append.mp ho
      · exact hmoves o ho
      · cases List.eq_of_mem_replicate ho
    refine .inr (sticks_of_endless hwaits hall ?_ hq)
    rw [hs, play, play, play, List.foldl_append]
  · exact .inl ⟨x, hq⟩

def summary? (s : Scene) (i : Nat) : Option SweepSummary :=
  match s.running[i]? with
  | some (.done (.swept (.ok summary))) => some summary
  | _ => none

theorem ended_of_summary? {i : Nat} {summary : SweepSummary} (h : s.summary? i = some summary) :
    s.running[i]? = some (.done (.swept (.ok summary))) := by
  unfold summary? at h
  split at h
  · next hended =>
    cases h
    exact hended
  · cases h

theorem move_sweep (around : Surroundings) (service : Service) {service' : Service} {φ : SweepPhase} {r : Request}
    {next : r.Reply → SweepPhase × List SweepEvent} (hask : φ.ask? around.settings around.limit = some ⟨r, next⟩)
    (log : List Exchange) (clock : Instant) (network : Network) (seed : Nat) {x : r.Reply}
    (hanswer : answer { around with network } r { service with clock, seed } = (x, service')) :
    move around ⟨service, [φ.upshot around], log⟩ (.answer 0 clock network seed) =
      ⟨service', [(next x).1.upshot around], log ++ [⟨r, x⟩]⟩ := by
  have hasks : [φ.upshot around][0]? = some (.ask r fun x => (next x).1.upshot around) :=
    congrArg some (SweepPhase.upshot_eq_ask hask)
  exact move_answer (s := ⟨service, [φ.upshot around], log⟩) hasks clock network seed hanswer

def patience : Automation :=
  ⟨default, default, "patience", .active,
    [⟨"greet", .action (.wait 1 .days), none⟩, ⟨"bye", .action (.removeTag "new"), none⟩],
    [⟨none, "greet", "bye", none⟩], ⟨1717408800, 0⟩, true, false, []⟩

def awaiting (id : Nat) (contactId : Int) (executeAt : Instant) : QueuedTask :=
  ⟨id, QueuedTask.morning, ⟨default, contactId, default, default, "greet", executeAt, .obj []⟩, .pending, none⟩

theorem awaiting_proper (id : Nat) (contactId : Int) {executeAt : Instant} (h : executeAt.Ordinary) :
    (awaiting id contactId executeAt).IsProper where
  storedAt := QueuedTask.morning_ordinary
  executeAt := h
  context := ⟨.nil, trivial⟩

theorem awaiting_legible (id : Nat) (contactId : Int) {executeAt : Instant} (h : executeAt.IsPlain) :
    (awaiting id contactId executeAt).IsLegible where
  storedAt := QueuedTask.morning_isPlain
  executeAt := h
  depth := Nat.le_of_ble_eq_true rfl
  numbers := by simp [awaiting, Json.numbers, Json.membersNumbers]

def noon : Instant := ⟨1717416000, 0⟩

def afternoon : Instant := ⟨1717419600, 0⟩

def evening : Instant := ⟨1717441200, 0⟩

def atNoon : List QueuedTask := [awaiting 1 7 noon, awaiting 2 1 noon]

def allTasks : List QueuedTask := atNoon ++ [awaiting 3 1 evening]

def threeTasks : Database :=
  { Race.oneTask with
    automations := [.ofAutomation patience]
    tasks := allTasks.map QueuedTask.row
    lastTaskId := 3 }

theorem dueTasks_threeTasks : threeTasks.dueTasks afternoon = .ok (atNoon.map QueuedTask.shown) := by
  have hproper : ∀ e ∈ allTasks, e.IsProper := by
    have hnoon : noon.Ordinary := ⟨by decide, by decide, by decide⟩
    have hevening : evening.Ordinary := ⟨by decide, by decide, by decide⟩
    simp [allTasks, atNoon, awaiting_proper, hnoon, hevening]
  have hlegible : ∀ e ∈ atNoon, e.IsLegible := by
    have hnoon : noon.IsPlain := by decide
    simp [atNoon, awaiting_legible, hnoon]
  have hdue : QueuedTask.textDue afternoon allTasks = atNoon := by
    have hfilter : (allTasks.filter fun e =>
        e.status == .pending && e.task.executeAt.microsText ≤ afternoon.microsText) = atNoon := rfl
    rw [QueuedTask.textDue, hfilter]
    exact List.mergeSort_of_pairwise (by decide)
  exact (QueuedTask.dueTasks_eq_ok rfl hproper).mpr ⟨hdue.symm ▸ hlegible, by rw [hdue]⟩

def waitingService : Service := .new threeTasks afternoon 0

def answers (n : Nat) : List Move := .replicate n (.answer 0 afternoon .unreachable 0)

def listed : Scene :=
  ⟨waitingService, [(SweepPhase.goOn ⟨0, 0, 0⟩ (atNoon.map QueuedTask.shown)).upshot .offline],
    [⟨.now, afternoon⟩, ⟨.dueTasks afternoon, .ok (atNoon.map QueuedTask.shown)⟩]⟩

def swept : Scene := (of .offline waitingService .sweep).play .offline (answers 14)

-- The listing sorts what it reads, so it goes by `dueTasks_threeTasks` and only the rest is evaluated.
theorem swept_eq_play : swept = listed.play .offline (answers 12) := by
  have hclock : (of .offline waitingService .sweep).move .offline (.answer 0 afternoon .unreachable 0) =
      ⟨waitingService.tick.2, [(SweepPhase.listing afternoon).upshot .offline], [⟨.now, afternoon⟩]⟩ :=
    move_sweep .offline waitingService (φ := .starting) rfl [] afternoon .unreachable 0 rfl
  have hlisting : move .offline ⟨waitingService.tick.2, [(SweepPhase.listing afternoon).upshot .offline],
      [⟨.now, afternoon⟩]⟩ (.answer 0 afternoon .unreachable 0) = listed :=
    move_sweep .offline waitingService.tick.2 (φ := .listing afternoon) rfl _ afternoon .unreachable 0
      (x := .ok (atNoon.map QueuedTask.shown)) (congrArg (·, _) dueTasks_threeTasks)
  rw [← hlisting, ← hclock]
  rfl

/-- The first task is said to have no contact, the second one is resumed and waits another day, the third one waits on. -/
theorem sweep_settles_noon : waitingService.db.TaskIds ∧ waitingService.forwarded = [] ∧
    swept.running[0]? = some (.done (.swept (.ok ⟨1, 1, 0⟩))) ∧
    (∃ now due, waitingService.db.dueTasks now = .ok due ∧ swept.Settles .offline waitingService.db now due ⟨1, 1, 0⟩) ∧
    swept.service.db.tasks.map (fun row => (row.status, row.errorMessage)) =
      [("failed", some "contact 7 not found"), ("processed", none), ("pending", none), ("pending", none)] := by
  have hids : waitingService.db.TaskIds := ⟨by decide, by decide⟩
  have hmoves : ∀ o, .begin o ∉ answers 14 := by simp [answers]
  have hsummary : swept.summary? 0 = some ⟨1, 1, 0⟩ := by
    rw [swept_eq_play]
    decide +kernel
  have hended := ended_of_summary? hsummary
  refine ⟨hids, rfl, hended, ?_, by rw [swept_eq_play]; decide +kernel⟩
  obtain ⟨now, e, hresult, -⟩ | ⟨now, due, summary, hdue, hresult, hsettles⟩ :=
    (sweep_settles hids rfl hmoves rfl).1 _ hended
  · cases hresult
  · cases hresult
    exact ⟨now, due, hdue, hsettles⟩

end Scene
end Outreach
