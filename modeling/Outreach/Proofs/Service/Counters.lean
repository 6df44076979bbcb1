import Outreach.Proofs.Engine.Accounts
import Outreach.Proofs.Engine.Counting
import Outreach.Proofs.Uuid

/-! The counters of an automation while runs, webhook calls, saves and changes of the status take their steps in any
order. Whatever the order, what was merged is added up, and nothing else touches them. -/
namespace Outreach

instance : Add NodeStats := ⟨NodeStats.add⟩

instance : Zero NodeStats := ⟨NodeStats.zero⟩

theorem NodeStats.add_comm (a b : NodeStats) : a.add b = b.add a := by simp [add, Nat.add_comm]

instance : AddCommMonoid NodeStats where
  add_assoc := NodeStats.add_assoc
  zero_add := NodeStats.zero_add
  add_zero := NodeStats.add_zero
  add_comm := NodeStats.add_comm
  nsmul := nsmulRec

theorem NodeStats.Fits.of_add {a b : NodeStats} (h : (a + b).Fits) : a.Fits :=
  ⟨(Nat.le_add_right _ _).trans_lt h.total, (Nat.le_add_right _ _).trans_lt h.success,
    (Nat.le_add_right _ _).trans_lt h.error⟩

def ExecutionStats.sumAt (deltas : List ExecutionStats) (n : String) : NodeStats := (deltas.map (·.counters n)).sum

def Request.KeepsCounters : Request → Prop
  | .createAutomation _ | .deleteAutomation _ | .mergeStats .. => False
  | _ => True

theorem Request.KeepsCounters.counting {r : Request} (h : r.KeepsCounters) : Terms.counting.asks r := by
  cases r <;> first | exact trivial | exact h.elim

theorem Request.LeavesAutomations.keepsCounters {r : Request} (h : r.LeavesAutomations) : r.KeepsCounters := by
  cases r <;> first | exact trivial | exact h.elim

def Exchange.merged? (id : Uuid) : Exchange → Option ExecutionStats
  | ⟨.mergeStats id' delta, .ok _⟩ => if id' = id then some delta else none
  | _ => none

theorem Request.KeepsCounters.merged? {r : Request} (h : r.KeepsCounters) (id : Uuid) (x : r.Reply) :
    Exchange.merged? id ⟨r, x⟩ = none := by
  cases r with
  | mergeStats target delta => exact h.elim
  | _ => rfl

theorem Request.IsFault.merged? {r : Request} {x : r.Reply} (h : r.IsFault x) (id : Uuid) :
    Exchange.merged? id ⟨r, x⟩ = none := by
  cases r with
  | mergeStats target delta =>
    obtain ⟨e, rfl⟩ := h
    rfl
  | _ => rfl

namespace Database
variable {id : Uuid} {db db' : Database}

/-- A change of rows does not touch the counters of an automation if it leaves those of its row. -/
theorem storedStats?_change (id : Uuid) (p : AutomationRow → Bool) (g : AutomationRow → AutomationRow)
    (hid : ∀ r, (g r).id = r.id) (hstats : ∀ r, p r = true → r.id = id.text → (g r).stats = r.stats)
    (rows : List AutomationRow) :
    ((change p g rows).2.find? (·.id == id.text)).map AutomationRow.stats =
      (rows.find? (·.id == id.text)).map AutomationRow.stats := by
  rw [find?_change fun r => by rw [hid], Option.map_map]
  apply Option.map_congr
  intro r hr
  simp only [Function.comp_apply]
  split
  · exact hstats r ‹_› (by simpa using List.find?_some hr)
  · rfl

theorem updateAutomation_stats {a : Automation} (h : db.updateAutomation a = .ok db') :
    db'.storedStats? id = db.storedStats? id := by
  unfold updateAutomation at h
  split at h
  · rename_i rows hrows
    cases h
    have hchange := storedStats?_change id (·.id == a.id.text) (·.withGraphOf a) (fun _ => rfl) (fun _ _ _ => rfl)
      db.automations
    rwa [hrows] at hchange
  · cases h

theorem setStatus_stats (target : Uuid) (status : AutomationStatus) :
    (db.setStatus target status).2.storedStats? id = db.storedStats? id :=
  storedStats?_change id (·.id == target.text) (fun r => { r with status := status.text }) (fun _ => rfl)
    (fun _ _ _ => rfl) db.automations

theorem mergeStats_stats_of_ne {target : Uuid} {delta : ExecutionStats} (h : db.mergeStats target delta = .ok db')
    (hne : target ≠ id) : db'.storedStats? id = db.storedStats? id := by
  unfold mergeStats at h
  split at h
  · cases h
  · rename_i row _
    cases hr : row.stats with
    | error e => rw [hr] at h; cases h
    | ok old =>
      rw [hr] at h
      cases h
      refine storedStats?_change id (·.id == target.text)
        (fun r => { r with executionStats := (old.merge delta).encode.text }) (fun _ => rfl) (fun r hp hid => ?_)
        db.automations
      exact absurd (Uuid.text_inj.mp ((beq_iff_eq.mp hp).symm.trans hid)) hne

/-- A row that was made has the counters of its automation. -/
theorem createAutomation_stats {a : Automation} (h : db.createAutomation a = .ok db') (hnew : a.executionStats = []) :
    db'.storedStats? a.id = some (.ok []) := by
  unfold createAutomation at h
  split at h
  · cases h
  · rename_i habsent
    cases h
    have hnone : db.automations.find? (·.id == a.id.text) = none := by
      refine List.find?_eq_none.mpr fun row hrow hid => habsent (List.any_eq_true.mpr ⟨row, hrow, hid⟩)
    have hstats : (AutomationRow.ofAutomation a).stats = .ok [] := by
      rw [AutomationRow.stats, AutomationRow.ofAutomation, hnew, Stored.document, ExecutionStats.ofText_nil]
    simp [storedStats?, List.find?_append, hnone, AutomationRow.ofAutomation, ← hstats]

end Database

namespace Service
open Database
variable {around : Surroundings} {s s' : Service} {r : Request} {x : r.Reply} {id : Uuid}

/-- Answers leave the counters of an automation, or they merge into them. -/
theorem Answers.stats (h : Answers around r s x s') (hr : Terms.counting.asks r) :
    Exchange.merged? id ⟨r, x⟩ = none ∧ s'.db.storedStats? id = s.db.storedStats? id ∨
      ∃ delta, delta.IsSettled ∧ Exchange.merged? id ⟨r, x⟩ = some delta ∧ s.db.mergeStats id delta = .ok s'.db := by
  cases r with
  | createAutomation a => exact hr.elim
  | deleteAutomation target => exact hr.elim
  | mergeStats target delta =>
    cases x with
    | error e =>
      refine .inl ⟨rfl, ?_⟩
      obtain ⟨clock, network, seed, h⟩ := h
      rw [writing_eq_error h]
    | ok _ =>
      have hmerge := h.merge
      by_cases hid : target = id
      · subst hid
        exact .inr ⟨delta, hr, if_pos rfl, hmerge⟩
      · exact .inl ⟨if_neg hid, mergeStats_stats_of_ne hmerge hid⟩
  | updateAutomation a =>
    refine .inl ⟨rfl, ?_⟩
    obtain ⟨clock, network, seed, h⟩ := h
    cases x with
    | error e => rw [writing_eq_error h]
    | ok _ =>
      obtain ⟨db, hupdate, rfl⟩ := writing_eq_ok h
      exact updateAutomation_stats hupdate
  | setStatus target status =>
    refine .inl ⟨rfl, ?_⟩
    obtain ⟨clock, network, seed, h⟩ := h
    cases h
    exact setStatus_stats target status
  | _ => exact .inl ⟨rfl, RunFrame.storedStats?_congr (h.automations trivial) id⟩

end Service

namespace Program
variable {α : Type} {p : Program α} {q : Program α} {l : List Exchange} {c : Terms} {P : α → Prop}

inductive Comes (p : Program α) : List Exchange → Program α → Prop where
  | start : Comes p [] p
  | asked {l : List Exchange} {r : Request} {next : r.Reply → Program α} (h : Comes p l (.ask r next)) (x : r.Reply) :
    Comes p (l ++ [⟨r, x⟩]) (next x)

theorem Comes.yields (h : p.Comes l q) {l' : List Exchange} {a : α} (hq : q.Yields l' a) : p.Yields (l ++ l') a := by
  induction h generalizing l' with
  | start => exact hq
  | asked h x ih =>
    rw [List.append_assoc]
    exact ih ⟨x, l', rfl, hq⟩

/-- A program that keeps to terms has kept to them, and goes on so. -/
theorem Comes.meets (h : p.Comes l q) (hp : p.Meets c P) (hany : ∀ r x, c.answers r x) :
    q.Meets c P ∧ ∀ e ∈ l, c.asks e.request := by
  induction h with
  | start => exact ⟨hp, List.forall_mem_nil _⟩
  | asked h x ih =>
    obtain ⟨hask, hl⟩ := ih
    refine ⟨hask.2 x (hany _ x), List.forall_mem_append.mpr ⟨hl, List.forall_mem_singleton.mpr hask.1⟩⟩

end Program

inductive Errand where
  | run (f : RunFrame) (resumeFrom : Option String)
  | call (webhookId : String) (body : Json)
  | save (a : Automation)
  | status (id : Uuid) (status : AutomationStatus)

def Errand.program (around : Surroundings) : Errand → Program (Option RunReport)
  | .run f resumeFrom => do return (← (f.run around.settings around.limit resumeFrom).run).toOption
  | .call webhookId body => do
    let _ ← (Intake.handle around.settings around.limit webhookId body).run
    return none
  | .save a => do
    let _ ← (Management.update a).run
    return none
  | .status id new => do
    let _ ← (Management.setStatus id new).run
    return none

theorem Errand.meets (around : Surroundings) (e : Errand) : (e.program around).Meets .counting fun _ => True := by
  cases e with
  | run f resumeFrom =>
    apply Program.meets_bind (RunFrame.run_meets_counting around.limit resumeFrom)
    intro _ _
    exact trivial
  | call webhookId body =>
    apply Program.meets_bind (Intake.handle_meets_counting around.settings around.limit webhookId body)
    intro _ _
    exact trivial
  | save a =>
    apply Program.meets_bind (Management.update_meets (c := .counting) (a := a) trivial)
    intro _ _
    exact trivial
  | status id new =>
    apply Program.meets_bind (Management.setStatus_meets (c := .counting) id new trivial trivial)
    intro _ _
    exact trivial

structure Job where
  errand : Errand
  log : List Exchange
  rest : Program (Option RunReport)

def Job.merges (id : Uuid) (job : Job) : List ExecutionStats := job.log.filterMap (Exchange.merged? id)

structure Ledger where
  service : Service
  jobs : List Job

namespace Ledger
open Service Database

def merges (id : Uuid) (s : Ledger) : List ExecutionStats := s.jobs.flatMap (Job.merges id)

/-- A job begins, its request is answered or fails without effect, or something else is asked of the service that adds
to no counters, while automations stay. -/
inductive Step (around : Surroundings) : Ledger → Ledger → Prop where
  | begin {s : Ledger} (e : Errand) : Step around s ⟨s.service, s.jobs ++ [⟨e, [], e.program around⟩]⟩
  | answered {s : Ledger} {service : Service} (i : Nat) {e : Errand} {log : List Exchange} {r : Request}
    {next : r.Reply → Program (Option RunReport)} {x : r.Reply} (asks : s.jobs[i]? = some ⟨e, log, .ask r next⟩)
    (answers : Answers around r s.service x service) :
    Step around s ⟨service, s.jobs.set i ⟨e, log ++ [⟨r, x⟩], next x⟩⟩
  | failed {s : Ledger} (i : Nat) {e : Errand} {log : List Exchange} {r : Request}
    {next : r.Reply → Program (Option RunReport)} {x : r.Reply} (asks : s.jobs[i]? = some ⟨e, log, .ask r next⟩)
    (fault : r.IsFault x) : Step around s ⟨s.service, s.jobs.set i ⟨e, log ++ [⟨r, x⟩], next x⟩⟩
  | elsewhere {s : Ledger} {service : Service} {r : Request} {x : r.Reply} (keeps : r.KeepsCounters)
    (answers : Answers around r s.service x service) : Step around s ⟨service, s.jobs⟩

def Run (around : Surroundings) : Ledger → Ledger → Prop := Relation.ReflTransGen (Step around)

variable {around : Surroundings} {id : Uuid} {old : ExecutionStats} {s s' : Ledger} {jobs : List Job} {i : Nat}
  {e : Errand} {log : List Exchange} {p : Program (Option RunReport)}

open ExecutionStats (sumAt)

theorem sumAt_append (a b : List ExecutionStats) (n : String) : sumAt (a ++ b) n = sumAt a n + sumAt b n := by
  rw [sumAt, List.map_append, List.sum_append]
  rfl

theorem sumAt_perm {a b : List ExecutionStats} (h : a.Perm b) (n : String) : sumAt a n = sumAt b n :=
  (h.map _).sum_eq

theorem merges_set (id : Uuid) (h : jobs[i]? = some ⟨e, log, p⟩) (x : Exchange) (rest : Program (Option RunReport)) :
    ((jobs.set i ⟨e, log ++ [x], rest⟩).flatMap (Job.merges id)).Perm
      (jobs.flatMap (Job.merges id) ++ (x.merged? id).toList) := by
  induction jobs generalizing i with
  | nil => cases h
  | cons job jobs ih =>
    cases i with
    | zero =>
      cases h
      have hjob : Job.merges id ⟨e, log ++ [x], rest⟩ = Job.merges id ⟨e, log, p⟩ ++ (x.merged? id).toList := by
        rw [Job.merges, Job.merges, List.filterMap_append]
        cases hx : x.merged? id <;> simp [hx]
      rw [List.set_cons_zero, List.flatMap_cons, List.flatMap_cons, hjob, List.append_assoc, List.append_assoc]
      exact List.perm_append_comm.append_left _
    | succ i =>
      rw [List.set_cons_succ, List.flatMap_cons, List.flatMap_cons, List.append_assoc]
      exact (ih h).append_left _

structure Inv (around : Surroundings) (id : Uuid) (old : ExecutionStats) (s : Ledger) : Prop where
  stored : (∀ n, (old.counters n + sumAt (s.merges id) n).Fits) →
    ∃ new, s.service.db.storedStats? id = some (.ok new) ∧ ∀ n, new.counters n = old.counters n + sumAt (s.merges id) n
  settled : ∀ delta ∈ s.merges id, delta.IsSettled
  jobs : ∀ job ∈ s.jobs, (job.errand.program around).Comes job.log job.rest

theorem inv_of_fresh (hjobs : s.jobs = []) (hold : s.service.db.storedStats? id = some (.ok old)) :
    s.Inv around id old where
  stored _ := ⟨old, hold, fun n => by rw [merges, hjobs]; exact (add_zero _).symm⟩
  settled := by simp [merges, hjobs]
  jobs := by simp [hjobs]

theorem Inv.exchange (hs : s.Inv around id old) {r : Request} {next : r.Reply → Program (Option RunReport)} {x : r.Reply}
    (asks : s.jobs[i]? = some ⟨e, log, .ask r next⟩) {service : Service}
    (h : Exchange.merged? id ⟨r, x⟩ = none ∧ service.db.storedStats? id = s.service.db.storedStats? id ∨
      ∃ delta, delta.IsSettled ∧ Exchange.merged? id ⟨r, x⟩ = some delta ∧
        s.service.db.mergeStats id delta = .ok service.db) :
    Inv around id old ⟨service, s.jobs.set i ⟨e, log ++ [⟨r, x⟩], next x⟩⟩ := by
  have hperm := merges_set id asks ⟨r, x⟩ (next x)
  have hjobs : ∀ job ∈ s.jobs.set i ⟨e, log ++ [⟨r, x⟩], next x⟩,
      (job.errand.program around).Comes job.log job.rest := by
    intro job hjob
    obtain hjob | rfl := List.mem_or_eq_of_mem_set hjob
    · exact hs.jobs job hjob
    · exact .asked (hs.jobs _ (List.mem_of_getElem? asks)) x
  obtain ⟨hnone, hsame⟩ | ⟨delta, hdelta, hsome, hmerge⟩ := h
  · rw [hnone, Option.toList_none, List.append_nil] at hperm
    refine ⟨fun hfits => ?_, fun delta hmem => hs.settled delta (hperm.mem_iff.mp hmem), hjobs⟩
    simp only [merges, sumAt_perm hperm] at hfits ⊢
    obtain ⟨new, hnew, hcounters⟩ := hs.stored hfits
    exact ⟨new, hsame.trans hnew, hcounters⟩
  · rw [hsome] at hperm
    refine ⟨fun hfits => ?_, fun d hd => ?_, hjobs⟩
    · have hsum (n : String) : sumAt (merges id ⟨service, s.jobs.set i ⟨e, log ++ [⟨r, x⟩], next x⟩⟩) n =
          sumAt (s.merges id) n + delta.counters n := by
        rw [merges, sumAt_perm hperm, sumAt_append]
        exact congrArg _ (add_zero _)
      simp only [hsum, ← add_assoc] at hfits ⊢
      obtain ⟨now, hnow, hcounters⟩ := hs.stored fun n => (hfits n).of_add
      obtain ⟨before, hbefore, hafter⟩ := mergeStats_stored hdelta.ascending hmerge
      cases hnow.symm.trans hbefore
      obtain ⟨new, hnew, hadded⟩ := hafter fun n => hcounters n ▸ hfits n
      exact ⟨new, hnew, fun n => (hadded n).trans (by rw [hcounters]; rfl)⟩
    · obtain hd | hd := List.mem_append.mp (hperm.mem_iff.mp hd)
      · exact hs.settled d hd
      · cases List.mem_singleton.mp hd
        exact hdelta

theorem Inv.step (hs : s.Inv around id old) (h : Step around s s') : s'.Inv around id old := by
  cases h with
  | begin e =>
    have hmerges : merges id ⟨s.service, s.jobs ++ [⟨e, [], e.program around⟩]⟩ = s.merges id := by
      rw [merges, List.flatMap_append]
      exact List.append_nil _
    refine ⟨hmerges ▸ hs.stored, hmerges ▸ hs.settled, ?_⟩
    exact List.forall_mem_append.mpr ⟨hs.jobs, List.forall_mem_singleton.mpr .start⟩
  | @answered service i e log r next x asks answers =>
    have hcomes := hs.jobs _ (List.mem_of_getElem? asks)
    have hasks : Terms.counting.asks r := (hcomes.meets (e.meets around) fun _ _ => trivial).1.1
    exact hs.exchange asks (answers.stats hasks)
  | failed i asks fault =>
    exact hs.exchange asks (.inl ⟨fault.merged? id, rfl⟩)
  | @elsewhere service r x keeps answers =>
    obtain ⟨-, hsame⟩ | ⟨delta, -, hsome, -⟩ := Answers.stats answers keeps.counting
    · exact ⟨fun hfits => by rw [hsame]; exact hs.stored hfits, hs.settled, hs.jobs⟩
    · cases (keeps.merged? id x).symm.trans hsome

theorem Inv.run (hs : s.Inv around id old) (h : Run around s s') : s'.Inv around id old := by
  induction h with
  | refl => exact hs
  | tail _ hstep ih => exact ih.step hstep

end Ledger

namespace Job
variable {around : Surroundings} {id : Uuid} {job : Job}

/-- A run adds its counters once at its end, unless it has nowhere to start or they cannot be stored, and saves and
changes of the status add nothing. -/
def MergesOnce (id : Uuid) (job : Job) : Prop :=
  match job.errand with
  | .run f _ =>
    (∀ report, job.rest = .done (some report) →
      job.merges id = if f.automation.id = id ∧ report.outcome ≠ .noStartNode then [report.stats] else []) ∧
    (job.rest = .done none → job.merges id = [])
  | .save _ | .status .. => job.merges id = []
  | .call .. => True

theorem merges_of_keeps {log : List Exchange} (h : ∀ e ∈ log, e.request.KeepsCounters) :
    log.filterMap (Exchange.merged? id) = [] :=
  List.filterMap_eq_nil_iff.mpr fun e he => (h e he).merged? id e.reply

theorem merges_of_ran {settings : EngineSettings} {f : RunFrame} {limit : Nat} {resumeFrom : Option String}
    {log : List Exchange} {x : Except RunError RunReport} (h : f.Ran settings limit resumeFrom log x) :
    (∀ report, x.toOption = some report → log.filterMap (Exchange.merged? id) =
      if f.automation.id = id ∧ report.outcome ≠ .noStartNode then [report.stats] else []) ∧
    (x.toOption = none → log.filterMap (Exchange.merged? id) = []) := by
  cases h with
  | nowhere start =>
    refine ⟨fun report hreport => ?_, fun _ => rfl⟩
    cases hreport
    exact (if_neg fun h => h.2 rfl).symm
  | @walked n legs outcome start walked within merged =>
    have hlegs : (Leg.log legs).filterMap (Exchange.merged? id) = [] :=
      merges_of_keeps fun e he => (walked.leavesAutomations e he).keepsCounters
    have hsome : outcome ≠ .noStartNode := by
      obtain ⟨before, last, -, rfl, -⟩ := walked.exists_last
      unfold Leg.outcome
      split <;> exact RunOutcome.noConfusion
    rw [List.filterMap_append, hlegs, List.nil_append]
    cases merged with
    | error e => exact ⟨fun report hreport => (by cases hreport), fun _ => rfl⟩
    | ok _ =>
      refine ⟨fun report hreport => ?_, fun hnone => by cases hnone⟩
      cases hreport
      by_cases hid : f.automation.id = id
      · rw [if_pos ⟨hid, hsome⟩]
        simp [Exchange.merged?, hid, RunFrame.report]
      · rw [if_neg fun h => hid h.1]
        simp [Exchange.merged?, hid]

theorem mergesOnce (h : (job.errand.program around).Comes job.log job.rest) : job.MergesOnce id := by
  obtain ⟨errand, log, rest⟩ := job
  have hkeeps (hp : (errand.program around).Meets ⟨Request.KeepsCounters, fun _ _ => True⟩ fun _ => True) :
      log.filterMap (Exchange.merged? id) = [] :=
    merges_of_keeps (h.meets hp fun _ _ => trivial).2
  cases errand with
  | run f resumeFrom =>
    have hran (result : Option RunReport) (hdone : rest = .done result) :
        ∃ x, f.Ran around.settings around.limit resumeFrom log x ∧ x.toOption = result := by
      subst hdone
      have hyields : (Errand.program around (.run f resumeFrom)).Yields (log ++ []) result := h.yields ⟨rfl, rfl⟩
      rw [List.append_nil] at hyields
      obtain ⟨x, l₁, l₂, hlog, hrun, hlast⟩ := Program.yields_bind.mp hyields
      obtain ⟨rfl, hresult⟩ := hlast
      rw [List.append_nil] at hlog
      subst hlog
      exact ⟨x, RunFrame.run_yields_iff.mp hrun, hresult.symm⟩
    refine ⟨fun report hdone => ?_, fun hdone => ?_⟩
    · obtain ⟨x, hx, hresult⟩ := hran _ hdone
      exact (merges_of_ran hx).1 report hresult
    · obtain ⟨x, hx, hresult⟩ := hran _ hdone
      exact (merges_of_ran hx).2 hresult
  | call webhookId body => exact trivial
  | save a =>
    refine hkeeps (Program.meets_bind (Management.update_meets (a := a) trivial) fun _ _ => ?_)
    exact trivial
  | status target new =>
    refine hkeeps (Program.meets_bind (Management.setStatus_meets target new trivial trivial) fun _ _ => ?_)
    exact trivial

end Job

namespace Management
open Service

/-- An automation that was made starts without counters. -/
theorem create_stats {around : Surroundings} {user : Uuid} {new : NewAutomation} {a : Automation} {s s' : Service}
    (h : (create user new).run.run (answer around) s = some (.ok a, s')) :
    s'.db.storedStats? a.id = some (.ok []) := by
  unfold create at h
  dsimp only at h
  split at h
  · obtain ⟨e, -, heq⟩ | ⟨_, s₁, hthrow, -⟩ := Attempt.run_bind_eq_some.mp h
    · cases heq
    · cases hthrow
  · obtain ⟨e, -, heq⟩ | ⟨⟨id, createdAt⟩, s₁, -, h⟩ := Attempt.run_bind_eq_some.mp h
    · cases heq
    obtain ⟨e, -, heq⟩ | ⟨_, s₂, -, h⟩ := Attempt.run_bind_eq_some.mp h
    · cases heq
    obtain ⟨e, -, heq⟩ | ⟨_, s₃, hmade, h⟩ := Attempt.run_bind_eq_some.mp h
    · cases heq
    cases h
    obtain ⟨db, hdb, rfl⟩ := writing_eq_ok (Option.some.inj (Attempt.ok_of_run hmade))
    exact Database.createAutomation_stats hdb rfl

end Management

namespace Ledger
open Service
open ExecutionStats (sumAt)
variable {around : Surroundings} {id : Uuid} {old : ExecutionStats} {s₀ s : Ledger}

/-- Settled counters are settled when they are added up. -/
theorem split_sumAt {deltas : List ExecutionStats} (h : ∀ delta ∈ deltas, delta.IsSettled) (n : String) :
    (0 + sumAt deltas n).success + (0 + sumAt deltas n).error = (0 + sumAt deltas n).total := by
  rw [zero_add]
  induction deltas with
  | nil => rfl
  | cons delta deltas ih =>
    obtain ⟨hdelta, hrest⟩ := List.forall_mem_cons.mp h
    have hsum : sumAt (delta :: deltas) n = (delta.counters n).add (sumAt deltas n) := List.sum_cons
    have hone := hdelta.split n
    have hmore := ih hrest
    rw [hsum, NodeStats.add]
    dsimp only
    omega

/-- The order of the steps does not matter to the counters: they are what they were and all that was added. Each run
adds its own once, and of an automation that was made without counters each attempt has succeeded or failed. -/
theorem counters_add_up (hfresh : s₀.jobs = []) (hold : s₀.service.db.storedStats? id = some (.ok old))
    (hrun : Run around s₀ s) (hfits : ∀ n, (old.counters n + sumAt (s.merges id) n).Fits) :
    ∃ stats, s.service.db.storedStats? id = some (.ok stats) ∧
      (∀ n, stats.counters n = old.counters n + sumAt (s.merges id) n) ∧
      (∀ job ∈ s.jobs, job.MergesOnce id) ∧
      (∀ s' stats', Run around s₀ s' → (s'.merges id).Perm (s.merges id) →
        s'.service.db.storedStats? id = some (.ok stats') → ∀ n, stats'.counters n = stats.counters n) ∧
      ∀ user new a before, (Management.create user new).run.run (answer around) before = some (.ok a, s₀.service) →
        a.id = id → ∀ n, (stats.counters n).success + (stats.counters n).error = (stats.counters n).total := by
  have hs : s.Inv around id old := (inv_of_fresh hfresh hold).run hrun
  obtain ⟨stats, hstored, hcounters⟩ := hs.stored hfits
  refine ⟨stats, hstored, hcounters, fun job hjob => Job.mergesOnce (hs.jobs job hjob), ?_, ?_⟩
  · intro s' stats' hrun' hperm hstored' n
    have hs' : s'.Inv around id old := (inv_of_fresh hfresh hold).run hrun'
    obtain ⟨new, hnew, hcounters'⟩ := hs'.stored fun n => by rw [sumAt_perm hperm]; exact hfits n
    cases hnew.symm.trans hstored'
    rw [hcounters', hcounters, sumAt_perm hperm]
  · intro user new a before hcreate hid n
    subst hid
    cases (Management.create_stats hcreate).symm.trans hold
    rw [hcounters]
    exact split_sumAt hs.settled n

def turn (around : Surroundings) (s : Ledger) (i : Nat) : Ledger :=
  match s.jobs[i]? with
  | some ⟨e, log, .ask r next⟩ =>
    let (x, service) := answer around r s.service
    ⟨service, s.jobs.set i ⟨e, log ++ [⟨r, x⟩], next x⟩⟩
  | _ => s

def play (around : Surroundings) (service : Service) (errands : List Errand) (turns : List Nat) : Ledger :=
  turns.foldl (turn around) ⟨service, errands.map fun e => ⟨e, [], e.program around⟩⟩

theorem run_turn (s : Ledger) (i : Nat) : Run around s (s.turn around i) := by
  unfold turn
  split
  · rename_i asks
    exact .single (.answered i asks ⟨s.service.clock, around.network, s.service.seed, rfl⟩)
  · exact .refl

theorem run_play (service : Service) (errands : List Errand) (turns : List Nat) :
    Run around ⟨service, []⟩ (play around service errands turns) := by
  have hbegin : Run around ⟨service, []⟩ ⟨service, errands.map fun e => ⟨e, [], e.program around⟩⟩ := by
    induction errands using List.reverseRecOn with
    | nil => exact .refl
    | append_singleton errands e ih =>
      rw [List.map_append]
      exact .tail ih (.begin e)
  have hturns (s : Ledger) : Run around s (turns.foldl (turn around) s) := by
    induction turns generalizing s with
    | nil => exact .refl
    | cons i turns ih => exact (run_turn s i).trans (ih _)
  exact hbegin.trans (hturns _)

def welcome : Automation :=
  ⟨default, default, "welcome", .active, [⟨"t", .trigger (.webhook "hook" true none), none⟩], [], ⟨1717408800, 0⟩, true,
    false, [("t", ⟨5, 4, 1⟩)]⟩

/-- Two runs beside a call: the first adds its counters after the automation was read for the call and before it is
saved with the sample, and the second after a change of the status. -/
theorem counters_add_up_of_two : ∃ s, Run .offline ⟨.holding (.trial welcome 0), []⟩ s ∧
    s.merges welcome.id = [[("t", ⟨1, 1, 0⟩)], [("t", ⟨1, 1, 0⟩)]] ∧
    s.service.db.automations.map (·.nodes) ≠ [(AutomationRow.ofAutomation welcome).nodes] ∧
    ∃ stats, s.service.db.storedStats? welcome.id = some (.ok stats) ∧ stats.counters "t" = ⟨7, 6, 1⟩ := by
  let s := play .offline (.holding (.trial welcome 0)) [.call "hook" .null,
    .run (.trial welcome 0) none, .status welcome.id .paused, .run (.trial welcome 0) none] [0, 1, 0, 2, 3]
  have hrun : Run .offline ⟨.holding (.trial welcome 0), []⟩ s := run_play _ _ _
  have hold : (Service.holding (.trial welcome 0)).db.storedStats? welcome.id = some (.ok [("t", ⟨5, 4, 1⟩)]) := by
    decide
  have hmerges : s.merges welcome.id = [[("t", ⟨1, 1, 0⟩)], [("t", ⟨1, 1, 0⟩)]] := by decide +kernel
  have hfits (n : String) : (ExecutionStats.counters [("t", ⟨5, 4, 1⟩)] n + sumAt (s.merges welcome.id) n).Fits := by
    rw [hmerges]
    by_cases hn : "t" = n
    · subst hn
      exact ⟨by decide, by decide, by decide⟩
    · have hnone (v : NodeStats) : ExecutionStats.counters [("t", v)] n = .zero := by
        rw [ExecutionStats.counters_cons, if_neg hn, ExecutionStats.counters_nil]
      simp only [sumAt, List.map_cons, List.map_nil, hnone]
      exact ⟨by decide, by decide, by decide⟩
  obtain ⟨stats, hstats, hcounters, -⟩ := counters_add_up rfl hold hrun hfits
  refine ⟨s, hrun, hmerges, by decide +kernel, stats, hstats, ?_⟩
  rw [hcounters, hmerges]
  rfl

end Ledger
end Outreach
