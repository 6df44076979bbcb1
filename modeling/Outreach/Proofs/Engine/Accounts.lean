import Outreach.Proofs.Engine.Walk
import Outreach.Proofs.Service.Plays

/-! What a report tells of a run: where it went, edge by edge, how each attempt ended, and what is added to the
counters that are stored. -/
namespace Outreach

namespace RunFrame
variable {settings : EngineSettings} {f : RunFrame} {n : Node} {l : List Exchange} {legs : List Leg}
  {outcome : RunOutcome}

theorem Walked.errors_le (h : f.Walked settings n legs outcome) : (Leg.counts legs).errors ≤ 1 := by
  obtain ⟨before, last, rfl, -, hbefore⟩ := h.exists_last
  have hzero : (before.map (·.amount.error)).sum = 0 := by
    refine List.sum_eq_zero fun k hk => ?_
    obtain ⟨leg, hleg, rfl⟩ := List.mem_map.mp hk
    obtain ⟨target, hresult⟩ := hbefore leg hleg
    rw [Leg.amount, hresult]
  have hone : last.amount.error ≤ 1 := by
    unfold Leg.amount
    split <;> decide
  rw [Leg.errors_counts, List.map_append, List.sum_append, hzero, List.map_singleton, List.sum_singleton]
  omega

theorem Walked.last_of_error (h : f.Walked settings n legs outcome) {id : String}
    (herror : 0 < (Leg.tally legs id).error) : (Leg.visited legs).getLast? = some id := by
  obtain ⟨before, last, rfl, -, hbefore⟩ := h.exists_last
  rw [Leg.tally_append, NodeStats.add, Leg.error_tally hbefore, Leg.tally] at herror
  by_cases hid : last.node.id = id
  · simp [Leg.visited, hid]
  · rw [if_neg hid] at herror
    exact absurd herror (Nat.lt_irrefl 0)

theorem visit_leavesAutomations {x : Except ActionError Advance} (h : (f.visit settings n).Yields l x) :
    ∀ e ∈ l, e.request.LeavesAutomations := by
  have hacting : ∀ r : Request, r.IsActing → r.LeavesAutomations := fun r hr => by
    cases r <;> first | exact trivial | exact hr.elim
  have hmeets : Attempt.Meets ⟨Request.LeavesAutomations, fun _ _ => True⟩ (f.MayCome n) (f.visit settings n) :=
    visit_meets_of hacting (fun _ _ => trivial) n fun _ _ _ _ => trivial
  exact (hmeets.of_yields h fun _ _ => trivial).1

theorem Walked.leavesAutomations (h : f.Walked settings n legs outcome) :
    ∀ e ∈ Leg.log legs, e.request.LeavesAutomations := by
  intro e he
  obtain ⟨leg, hleg, hmem⟩ := List.mem_flatMap.mp he
  exact visit_leavesAutomations (h.visits leg hleg) e hmem

structure Accounts (f : RunFrame) (resumeFrom : Option String) (log : List Exchange) (report : RunReport) : Prop where
  nowhere : report.visited = [] ↔ report.outcome = .noStartNode
  nothing : report.outcome = .noStartNode → log = []
  path : ∃ path : List Node, report.visited = path.map (·.id) ∧ path.head? = f.start? resumeFrom ∧
    path.IsChain f.automation.Joins
  total : ∀ id, (report.stats.counters id).total = report.visited.count id
  split : ∀ id, (report.stats.counters id).success + (report.stats.counters id).error =
    (report.stats.counters id).total
  errors : (report.stats.map (·.2.error)).sum ≤ 1
  failing : ∀ id, 0 < (report.stats.counters id).error → report.visited.getLast? = some id
  /-- In a service that has part in the run, the counters of the report are added to those that were stored. -/
  stored : ∀ around s s', Service.Plays around s log s' →
    (report.outcome ≠ .noStartNode → ∃ old, s.db.storedStats? f.automation.id = some (.ok old)) ∧
    ∀ old, s.db.storedStats? f.automation.id = some (.ok old) →
      (∀ id, ((old.counters id).add (report.stats.counters id)).Fits) →
        ∃ new, s'.db.storedStats? f.automation.id = some (.ok new) ∧
          ∀ id, new.counters id = (old.counters id).add (report.stats.counters id)

theorem storedStats?_congr {a b : Database} (h : a.automations = b.automations) (id : Uuid) :
    a.storedStats? id = b.storedStats? id := by
  rw [Database.storedStats?, h, Database.storedStats?]

theorem accounts_nowhere {resumeFrom : Option String} (h : f.start? resumeFrom = none) :
    f.Accounts resumeFrom [] ⟨f.automation.id, [], [], .noStartNode⟩ where
  nowhere := iff_of_true rfl rfl
  nothing _ := rfl
  path := ⟨[], rfl, h.symm, .nil⟩
  total _ := rfl
  split _ := rfl
  errors := Nat.zero_le 1
  failing id herror := absurd herror (Nat.lt_irrefl 0)
  stored around s s' hplays := by
    refine ⟨fun h => absurd rfl h, fun old hold _ => ⟨old, ?_, fun _ => rfl⟩⟩
    exact (storedStats?_congr (hplays.automations (List.forall_mem_nil _)) _).trans hold

theorem accounts_walked {resumeFrom : Option String} (hstart : f.start? resumeFrom = some n)
    (h : f.Walked settings n legs outcome) :
    f.Accounts resumeFrom (Leg.log legs ++ [⟨.mergeStats f.automation.id (Leg.counts legs), .ok ()⟩])
      (f.report legs outcome) := by
  have hcounters := Leg.counters_counts legs
  have hsome : outcome ≠ .noStartNode := by
    obtain ⟨before, last, -, rfl, -⟩ := h.exists_last
    unfold Leg.outcome
    split <;> exact RunOutcome.noConfusion
  have hvisited : Leg.visited legs ≠ [] := fun hnil => h.ne_nil (List.map_eq_nil_iff.mp hnil)
  refine ⟨iff_of_false hvisited hsome, fun h => absurd h hsome, ⟨legs.map (·.node), ?_, ?_, h.isChain⟩, fun id => ?_,
    fun id => ?_, h.errors_le, fun id herror => ?_, fun around s s' hplays => ?_⟩
  · rw [report, Leg.visited, List.map_map]
    rfl
  · obtain ⟨leg, rest, rfl, rfl⟩ := h.head
    exact hstart.symm
  · rw [report, hcounters, Leg.total_tally]
  · rw [report, hcounters, Leg.split_tally]
  · rw [report, hcounters] at herror
    exact h.last_of_error herror
  · obtain ⟨s₁, s₂, hbefore, hafter, hmerge⟩ := hplays.merge h.leavesAutomations
    obtain ⟨old, hold, hnew⟩ := Database.mergeStats_stored (Leg.counts_ascending legs) hmerge
    have hstored := (storedStats?_congr hbefore f.automation.id).symm.trans hold
    rw [storedStats?_congr hafter]
    refine ⟨fun _ => ⟨old, hstored⟩, fun old' hold' hfits => ?_⟩
    cases hstored.symm.trans hold'
    exact hnew hfits

/-- Whatever a run does that ends with a report, the report accounts for it. -/
theorem accounts_of_yields {limit : Nat} {resumeFrom : Option String} {log : List Exchange} {report : RunReport}
    (h : (f.run settings limit resumeFrom).Yields log (.ok report)) : f.Accounts resumeFrom log report := by
  generalize hx : Except.ok report = x at h
  cases run_yields_iff.mp h with
  | nowhere start =>
    cases hx
    exact accounts_nowhere start
  | walked start walked within merged =>
    cases merged with
    | error e => cases hx
    | ok _ =>
      cases hx
      exact accounts_walked start walked

end RunFrame

/-- Whatever an execution does that ends with a report, the report accounts for it. -/
theorem execute_accounts {settings : EngineSettings} {limit : Nat} {automation : Automation} {contact : Contact}
    {context : Json} {connection : Connection} {resumeFrom : Option String} {log : List Exchange} {report : RunReport}
    (h : (execute settings limit automation contact context connection resumeFrom).Yields log (.ok report)) :
    (RunFrame.mk automation contact context connection (forwardDepth context)).Accounts resumeFrom log report :=
  RunFrame.accounts_of_yields h

def hopeless : Automation :=
  ⟨default, default, "welcome", .active,
    [⟨"t", .trigger (.webhook "hook" false none), none⟩, ⟨"w", .action (.wait 4294967295 .days), none⟩],
    [⟨none, "t", "w", none⟩], ⟨1717408800, 0⟩, true, false, [("t", ⟨5, 5, 0⟩)]⟩

/-- The wait fails, which is counted where five attempts at its trigger had been counted before. -/
theorem execute_accounts_of_hopeless : ∃ log report s',
    (execute Surroundings.offline.settings 8 hopeless (RunFrame.trial hopeless 0).contact
      (RunFrame.trial hopeless 0).eventContext (RunFrame.trial hopeless 0).connection none).Yields log (.ok report) ∧
    Service.Plays .offline (.holding (RunFrame.trial hopeless 0)) log s' ∧ report.visited = ["t", "w"] ∧
    (report.stats.counters "w") = ⟨1, 0, 1⟩ ∧ ∃ new, s'.db.storedStats? hopeless.id = some (.ok new) ∧
      new.counters "t" = ⟨6, 6, 0⟩ ∧ new.counters "w" = ⟨1, 0, 1⟩ := by
  let f := RunFrame.trial hopeless 0
  let run := (execute Surroundings.offline.settings 8 hopeless f.contact f.eventContext f.connection none).run.run
    (Service.answer .offline) (.holding (RunFrame.trial hopeless 0))
  have hrun : (run.bind fun x => x.1.toOption.map fun r => (r.visited, r.stats)) =
      some (["t", "w"], [("t", ⟨1, 1, 0⟩), ("w", ⟨1, 0, 1⟩)]) := by decide
  obtain ⟨⟨x, s'⟩, hx, hreport⟩ := Option.bind_eq_some_iff.mp hrun
  cases x with
  | error e => cases hreport
  | ok report =>
    have hvisited : report.visited = ["t", "w"] := congrArg Prod.fst (Option.some.inj hreport)
    have hstats : report.stats = [("t", ⟨1, 1, 0⟩), ("w", ⟨1, 0, 1⟩)] := congrArg Prod.snd (Option.some.inj hreport)
    obtain ⟨log, hlog, hplays⟩ := Service.exists_plays hx
    have haccounts := execute_accounts hlog
    have hold : (Service.holding (RunFrame.trial hopeless 0)).db.storedStats? hopeless.id = some (.ok [("t", ⟨5, 5, 0⟩)]) := by
      decide
    have hsum (id : String) : ((ExecutionStats.counters [("t", ⟨5, 5, 0⟩)] id).add (report.stats.counters id)).Fits := by
      rw [hstats]
      simp only [ExecutionStats.counters_cons, ExecutionStats.counters_nil]
      split_ifs <;> exact ⟨by decide, by decide, by decide⟩
    obtain ⟨new, hnew, hcounters⟩ := (haccounts.stored _ _ _ hplays).2 _ hold hsum
    refine ⟨log, report, s', hlog, hplays, hvisited, by rw [hstats]; rfl, new, hnew, ?_, ?_⟩
    · rw [hcounters, hstats]
      rfl
    · rw [hcounters, hstats]
      rfl

end Outreach
