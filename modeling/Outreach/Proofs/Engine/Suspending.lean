import Outreach.Proofs.Engine.Contexts
import Outreach.Proofs.Engine.Walk
import Outreach.Proofs.Service.Plays

/-! Runs that are suspended. Only a wait at the end of a run stores a task, it stores one, and nothing comes after. -/
namespace Outreach

namespace Instant

def InRangeAfter (t : Instant) (n : Nat) : Prop := minSeconds ≤ t.seconds + n ∧ t.seconds + n ≤ maxSeconds

theorem addSeconds?_nat (t : Instant) (n : Nat) : ∃ nanos, nanos % 1000000000 = t.nanos % 1000000000 ∧
    t.addSeconds? n = inRange? ⟨t.seconds + n, nanos⟩ := by
  unfold addSeconds?
  by_cases hzero : n = 0
  · subst hzero
    exact ⟨t.nanos, rfl, by simp⟩
  · by_cases hnanos : t.nanos < 1000000000
    · exact ⟨t.nanos, rfl, by simp [hnanos]⟩
    · refine ⟨t.nanos - 1000000000, by omega, ?_⟩
      have hpos : 0 < n := Nat.pos_of_ne_zero hzero
      simp [hnanos, hzero, hpos]

theorem addSeconds?_isNone {t : Instant} {n : Nat} : t.addSeconds? n = none ↔ ¬ t.InRangeAfter n := by
  obtain ⟨nanos, -, h⟩ := addSeconds?_nat t n
  rw [h, inRange?, InRangeAfter]
  split <;> simp_all

theorem seconds_of_addSeconds? {t u : Instant} {n : Nat} (h : t.addSeconds? n = some u) :
    t.InRangeAfter n ∧ u.seconds = t.seconds + n ∧ u.nanos % 1000000000 = t.nanos % 1000000000 := by
  obtain ⟨nanos, hnanos, hadd⟩ := addSeconds?_nat t n
  rw [hadd, inRange?] at h
  split at h
  · rename_i hrange
    cases h
    exact ⟨hrange, rfl, hnanos⟩
  · cases h

end Instant

def Exchange.reading? : Exchange → Option Instant
  | ⟨.now, now⟩ => some now
  | _ => none

def Request.IsInsertion (r : Request) : Prop := ∃ t, r = .insertTask t

theorem Exchange.stored?_eq_none {e : Exchange} (h : ¬ e.request.IsInsertion) : e.stored? = none := by
  obtain ⟨r, x⟩ := e
  cases r <;> first | rfl | exact absurd ⟨_, rfl⟩ h

theorem filterMap_stored? {l : List Exchange} (h : ∀ e ∈ l, ¬ e.request.IsInsertion) :
    l.filterMap Exchange.stored? = [] :=
  List.filterMap_eq_nil_iff.mpr fun e he => Exchange.stored?_eq_none (h e he)

namespace RunFrame
variable {settings : EngineSettings} {f : RunFrame} {n : Node} {l : List Exchange} {legs : List Leg}
  {outcome : RunOutcome}

theorem acting_not_insertion (hn : ¬ n.IsWait) {x : Except ActionError Advance}
    (h : (f.visit settings n).Yields l x) : ∀ e ∈ l, ¬ e.request.IsInsertion := by
  rintro e he ⟨t, ht⟩
  obtain hacting | ⟨target, -, hspawn⟩ := (visit_yields_acting hn h).1 e he
  · rw [ht] at hacting
    exact hacting
  · rw [ht] at hspawn
    cases hspawn

theorem moved_not_insertion {next : Option String} (h : (f.visit settings n).Yields l (.ok (.next next))) :
    ∀ e ∈ l, ¬ e.request.IsInsertion := by
  by_cases hn : n.IsWait
  · obtain ⟨delay, unit, hn⟩ := hn
    obtain ⟨now, rest, rfl, hend⟩ := (visit_yields_wait hn).mp h
    cases hend
    rintro e he ⟨t, ht⟩
    cases List.mem_singleton.mp he
    cases ht
  · exact acting_not_insertion hn h

theorem Walked.log_not_insertion {more : List Leg} (h : f.Walked settings n (legs ++ more) outcome)
    (hmoves : ∀ leg ∈ legs, ∃ target, leg.result = .ok (.next (some target))) :
    ∀ e ∈ Leg.log legs, ¬ e.request.IsInsertion := by
  intro e he
  obtain ⟨leg, hleg, hmem⟩ := List.mem_flatMap.mp he
  obtain ⟨target, hresult⟩ := hmoves leg hleg
  exact moved_not_insertion (hresult ▸ h.visits leg (List.mem_append_left _ hleg)) e hmem

structure EndsWaiting (path : List Node) (log : List Exchange) (w : Node) (delay : Nat) (unit : WaitUnit)
    (now : Instant) : Prop where
  last : path.getLast? = some w
  wait : w.data = .action (.wait delay unit)
  clock : (log.filterMap Exchange.reading?).getLast? = some now

structure Queues (f : RunFrame) (delay : Nat) (unit : WaitUnit) (now : Instant) (target : String) (t : NewTask) :
    Prop where
  user : t.userId = f.contact.userId
  contact : t.contactId = f.contact.id
  automation : t.automationId = f.automation.id
  connection : t.connectionId = f.connection.id
  target : t.resumeFromNodeId = target
  seconds : t.executeAt.seconds = now.seconds + (delay * unit.seconds : Nat)
  nanos : t.executeAt.nanos % 1000000000 = now.nanos % 1000000000
  object : ∃ ms, t.context = .obj ms
  depth : t.context.get? forwardDepthKey = if 0 < f.depth then some (.nat f.depth) else none
  members : ∀ key, key ≠ forwardDepthKey → t.context.get? key = f.eventContext.get? key
  pending : ∀ around s s' id, Service.Answers around (.insertTask t) s (.ok id) s' →
    ∃ now, s'.db.tasks = s.db.tasks ++ [TaskRow.ofNew id now t] ∧ (TaskRow.ofNew id now t).status = TaskStatus.pending.text

theorem queues_taskAt {ms : List (String × Json)} (hcontext : f.eventContext = .obj ms) {delay : Nat} {unit : WaitUnit}
    {now t : Instant} {target : String} (ht : now.addSeconds? (delay * unit.seconds : Nat) = some t) :
    f.Queues delay unit now target (f.taskAt target t) := by
  obtain ⟨-, hseconds, hnanos⟩ := Instant.seconds_of_addSeconds? ht
  have htask : (f.taskAt target t).context = suspendedContext (.obj ms) f.depth := by rw [taskAt, hcontext]
  refine ⟨rfl, rfl, rfl, rfl, rfl, hseconds, hnanos, ⟨_, htask⟩, ?_, fun key hkey => ?_, fun around s s' id h => ?_⟩
  · rw [htask, get?_suspendedContext]
  · rw [htask, hcontext, suspendedContext, Json.get?, Json.get?]
    split
    · rw [Keyed.get?_put, if_neg (Ne.symm hkey)]
    · rw [Keyed.get?_erase, if_neg (Ne.symm hkey)]
  · obtain ⟨stored, htasks⟩ := h.inserted
    exact ⟨stored, htasks, rfl⟩

structure Suspends (f : RunFrame) (path : List Node) (log : List Exchange) (report : RunReport) : Prop where
  /-- One task is stored, and then nothing else is asked for but that the counters be stored. -/
  suspended : ∀ id target, report.outcome = .suspended id target → ∃ w delay unit now t before merged,
    EndsWaiting path log w delay unit now ∧ (leaving f.automation.edges w.id .straight).head? = some target ∧
    f.Queues delay unit now target t ∧ (∀ e ∈ before, ¬ e.request.IsInsertion) ∧
    log = before ++ [⟨.now, now⟩, ⟨.insertTask t, .ok id⟩,
      ⟨.mergeStats f.automation.id report.stats, merged⟩] ∧ log.filterMap Exchange.stored? = [(t, id)]
  completed : (∀ id target, report.outcome ≠ .suspended id target) → log.filterMap Exchange.stored? = []
  exactly : (∀ e ∈ log, ¬ e.request.IsFault e.reply) → ((∃ id target, report.outcome = .suspended id target) ↔
    ∃ w delay unit now target, EndsWaiting path log w delay unit now ∧
      (leaving f.automation.edges w.id .straight).head? = some target ∧ now.InRangeAfter (delay * unit.seconds))
  withoutSuccessor : ∀ w delay unit now, EndsWaiting path log w delay unit now →
    leaving f.automation.edges w.id .straight = [] → now.InRangeAfter (delay * unit.seconds) →
      report.outcome = .completed ∧ (∀ e ∈ log, ¬ e.request.IsInsertion) ∧ (report.stats.counters w.id).error = 0
  outOfRange : ∀ w delay unit now, EndsWaiting path log w delay unit now →
    ¬ now.InRangeAfter (delay * unit.seconds) →
      report.outcome = .completed ∧ (∀ e ∈ log, ¬ e.request.IsInsertion) ∧ (report.stats.counters w.id).error = 1

theorem suspends_of_completed {path : List Node} {log : List Exchange} {report : RunReport}
    (houtcome : ∀ id target, report.outcome ≠ .suspended id target) (hstored : log.filterMap Exchange.stored? = [])
    (hnone : (∀ e ∈ log, ¬ e.request.IsFault e.reply) → ∀ w delay unit now target,
      EndsWaiting path log w delay unit now → (leaving f.automation.edges w.id .straight).head? = some target →
        ¬ now.InRangeAfter (delay * unit.seconds))
    (hlast : ∀ w delay unit now, EndsWaiting path log w delay unit now →
      leaving f.automation.edges w.id .straight = [] → now.InRangeAfter (delay * unit.seconds) →
        report.outcome = .completed ∧ (∀ e ∈ log, ¬ e.request.IsInsertion) ∧ (report.stats.counters w.id).error = 0)
    (hrange : ∀ w delay unit now, EndsWaiting path log w delay unit now →
      ¬ now.InRangeAfter (delay * unit.seconds) →
        report.outcome = .completed ∧ (∀ e ∈ log, ¬ e.request.IsInsertion) ∧ (report.stats.counters w.id).error = 1) :
    f.Suspends path log report := by
  refine ⟨fun id target h => absurd h (houtcome id target), fun _ => hstored, fun hfaults => iff_of_false ?_ ?_, hlast,
    hrange⟩
  · rintro ⟨id, target, h⟩
    exact houtcome id target h
  · rintro ⟨w, delay, unit, now, target, hends, htarget, hin⟩
    exact hnone hfaults w delay unit now target hends htarget hin

theorem suspends_of_acting {path : List Node} {log : List Exchange} {report : RunReport} {last : Leg}
    (hpath : path.getLast? = some last.node) (hn : ¬ last.node.IsWait) (houtcome : report.outcome = .completed)
    (hlog : ∀ e ∈ log, ¬ e.request.IsInsertion) : f.Suspends path log report := by
  have hnone {w : Node} {delay : Nat} {unit : WaitUnit} {now : Instant} : ¬ EndsWaiting path log w delay unit now := by
    rintro ⟨hlast, hwait, -⟩
    cases hpath.symm.trans hlast
    exact hn ⟨delay, unit, hwait⟩
  refine suspends_of_completed (fun id target h => ?_) (filterMap_stored? hlog) ?_ ?_ ?_
  · cases houtcome.symm.trans h
  · exact fun _ w delay unit now target h => absurd h hnone
  · exact fun w delay unit now h => absurd h hnone
  · exact fun w delay unit now h => absurd h hnone

section
variable {path : List Node} {w : Node} {delay : Nat} {unit : WaitUnit} {now : Instant} {before rest : List Exchange}
  {x : Except ActionError Advance}

/-- The clock is read for the last time when the wait begins. -/
theorem WaitEnd.endsWaiting_iff (hend : f.WaitEnd w now delay unit rest x) (hpath : path.getLast? = some w)
    (hw : w.data = .action (.wait delay unit)) {log : List Exchange} {id : Uuid} {stats : ExecutionStats}
    {merged : Except RepositoryError Unit}
    (hlog : log = before ++ ⟨.now, now⟩ :: (rest ++ [⟨.mergeStats id stats, merged⟩])) {w' : Node} {delay' : Nat}
    {unit' : WaitUnit} {now' : Instant} :
    EndsWaiting path log w' delay' unit' now' ↔ w' = w ∧ delay' = delay ∧ unit' = unit ∧ now' = now := by
  have hreading : (log.filterMap Exchange.reading?).getLast? = some now := by
    have hrest : List.filterMap Exchange.reading? (rest ++ [⟨.mergeStats id stats, merged⟩]) = [] := by
      cases hend <;> rfl
    have hnow : Exchange.reading? ⟨.now, now⟩ = some now := rfl
    rw [hlog, List.filterMap_append, List.filterMap_cons_some hnow, hrest, List.getLast?_append]
    rfl
  constructor
  · rintro ⟨hlast, hwait, hclock⟩
    cases hpath.symm.trans hlast
    cases hw.symm.trans hwait
    exact ⟨rfl, rfl, rfl, Option.some.inj (hclock.symm.trans hreading)⟩
  · rintro ⟨rfl, rfl, rfl, rfl⟩
    exact ⟨hpath, hw, hreading⟩

theorem suspends_of_wait {ms : List (String × Json)} (hcontext : f.eventContext = .obj ms)
    (hpath : path.getLast? = some w) (hw : w.data = .action (.wait delay unit))
    (hbefore : ∀ e ∈ before, ¬ e.request.IsInsertion) (hend : f.WaitEnd w now delay unit rest x) {report : RunReport}
    (houtcome : report.outcome = (Leg.mk w rest x).outcome)
    (herror : (report.stats.counters w.id).error = (Leg.mk w rest x).amount.error)
    (merged : Except RepositoryError Unit) {log : List Exchange}
    (hlog : log = before ++ ⟨.now, now⟩ :: (rest ++ [⟨.mergeStats f.automation.id report.stats, merged⟩])) :
    f.Suspends path log report := by
  have hwaiting {w' : Node} {delay' : Nat} {unit' : WaitUnit} {now' : Instant} :
      EndsWaiting path log w' delay' unit' now' ↔ w' = w ∧ delay' = delay ∧ unit' = unit ∧ now' = now :=
    hend.endsWaiting_iff hpath hw hlog
  have hroute := Routes.next?_classify f.automation.edges w.id
  have hothers (hrest : rest = []) : ∀ e ∈ log, ¬ e.request.IsInsertion := by
    rw [hlog, hrest]
    refine List.forall_mem_append.mpr ⟨hbefore, ?_⟩
    simp [Request.IsInsertion]
  -- For each end of the wait one clause of `Suspends` has something to say; the others are about another end, and
  -- `hwaiting` tells them apart.
  cases hend with
  | outOfRange range =>
    have hrange := Instant.addSeconds?_isNone.mp range
    refine suspends_of_completed (fun id target h => ?_) (filterMap_stored? (hothers rfl)) ?_ ?_ ?_
    · cases houtcome.symm.trans h
    · intro _ w' delay' unit' now' target h _
      obtain ⟨rfl, rfl, rfl, rfl⟩ := hwaiting.mp h
      exact hrange
    · intro w' delay' unit' now' h _ hin
      obtain ⟨rfl, rfl, rfl, rfl⟩ := hwaiting.mp h
      exact absurd hin hrange
    · intro w' delay' unit' now' h _
      obtain ⟨rfl, rfl, rfl, rfl⟩ := hwaiting.mp h
      exact ⟨houtcome, hothers rfl, herror⟩
  | last range route =>
    obtain ⟨hrange, -⟩ := Instant.seconds_of_addSeconds? range
    refine suspends_of_completed (fun id target h => ?_) (filterMap_stored? (hothers rfl)) ?_ ?_ ?_
    · cases houtcome.symm.trans h
    · intro _ w' delay' unit' now' target h htarget
      obtain ⟨rfl, rfl, rfl, rfl⟩ := hwaiting.mp h
      cases route.symm.trans (hroute.trans htarget)
    · intro w' delay' unit' now' h _ _
      obtain ⟨rfl, rfl, rfl, rfl⟩ := hwaiting.mp h
      exact ⟨houtcome, hothers rfl, herror⟩
    · intro w' delay' unit' now' h hin
      obtain ⟨rfl, rfl, rfl, rfl⟩ := hwaiting.mp h
      exact absurd hrange hin
  | @stored t next range route id =>
    obtain ⟨hrange, -⟩ := Instant.seconds_of_addSeconds? range
    have htarget := hroute.symm.trans route
    have hstored : log.filterMap Exchange.stored? = [(f.taskAt next t, id)] := by
      rw [hlog, List.filterMap_append, filterMap_stored? hbefore]
      rfl
    refine ⟨fun id' target h => ?_, fun h => absurd houtcome (h id next), fun _ => iff_of_true ⟨id, next, houtcome⟩ ?_,
      ?_, ?_⟩
    · cases houtcome.symm.trans h
      exact ⟨w, delay, unit, now, f.taskAt next t, before, merged, hwaiting.mpr ⟨rfl, rfl, rfl, rfl⟩, htarget,
        queues_taskAt hcontext range, hbefore, hlog, hstored⟩
    · exact ⟨w, delay, unit, now, next, hwaiting.mpr ⟨rfl, rfl, rfl, rfl⟩, htarget, hrange⟩
    · intro w' delay' unit' now' h hnil _
      obtain ⟨rfl, rfl, rfl, rfl⟩ := hwaiting.mp h
      rw [hnil] at htarget
      cases htarget
    · intro w' delay' unit' now' h hin
      obtain ⟨rfl, rfl, rfl, rfl⟩ := hwaiting.mp h
      exact absurd hrange hin
  | @failed t next range route e =>
    obtain ⟨hrange, -⟩ := Instant.seconds_of_addSeconds? range
    have htarget := hroute.symm.trans route
    refine suspends_of_completed (fun id target h => ?_) ?_ (fun hfaults => ?_) ?_ ?_
    · cases houtcome.symm.trans h
    · rw [hlog, List.filterMap_append, filterMap_stored? hbefore]
      rfl
    · exact absurd ⟨e, rfl⟩ (hfaults ⟨.insertTask (f.taskAt next t), .error e⟩ (by simp [hlog]))
    · intro w' delay' unit' now' h hnil _
      obtain ⟨rfl, rfl, rfl, rfl⟩ := hwaiting.mp h
      rw [hnil] at htarget
      cases htarget
    · intro w' delay' unit' now' h hin
      obtain ⟨rfl, rfl, rfl, rfl⟩ := hwaiting.mp h
      exact absurd hrange hin

end

theorem suspends_nowhere : f.Suspends [] [] ⟨f.automation.id, [], [], .noStartNode⟩ := by
  have hnone {w : Node} {delay : Nat} {unit : WaitUnit} {now : Instant} : ¬ EndsWaiting [] [] w delay unit now :=
    fun h => absurd h.last (Option.some_ne_none w).symm
  refine suspends_of_completed (fun id target h => ?_) rfl ?_ ?_ ?_
  · cases h
  · exact fun _ w delay unit now target h => absurd h hnone
  · exact fun w delay unit now h => absurd h hnone
  · exact fun w delay unit now h => absurd h hnone

theorem Walked.suspends {ms : List (String × Json)} (hcontext : f.eventContext = .obj ms)
    (h : f.Walked settings n legs outcome) (merged : Except RepositoryError Unit) :
    f.Suspends (legs.map (·.node)) (Leg.log legs ++ [⟨.mergeStats f.automation.id (Leg.counts legs), merged⟩])
      (f.report legs outcome) := by
  obtain ⟨before, last, rfl, rfl, hbefore⟩ := h.exists_last
  have hpath : ((before ++ [last]).map (·.node)).getLast? = some last.node := by simp
  have hfirst := h.log_not_insertion hbefore
  have hlast := h.visits last (List.mem_append_right _ List.mem_cons_self)
  have hlog : Leg.log (before ++ [last]) = Leg.log before ++ last.exchanges := by
    rw [Leg.log_append, Leg.log_cons]
    exact congrArg _ (List.append_nil _)
  rw [hlog]
  by_cases hn : last.node.IsWait
  · obtain ⟨delay, unit, hw⟩ := hn
    obtain ⟨now, rest, hexchanges, hend⟩ := (visit_yields_wait hw).mp hlast
    have herror : ((f.report (before ++ [last]) last.outcome).stats.counters last.node.id).error =
        (Leg.mk last.node rest last.result).amount.error := by
      rw [report, Leg.counters_counts, Leg.tally_append, NodeStats.add, Leg.error_tally hbefore, Leg.tally, if_pos rfl]
      exact Nat.zero_add _
    refine suspends_of_wait hcontext hpath hw hfirst hend rfl herror merged ?_
    rw [hexchanges, List.append_assoc]
    rfl
  · have hcompleted : last.outcome = .completed := by
      unfold Leg.outcome
      split
      · rename_i id target hresult
        obtain ⟨next, hnext, -⟩ := (visit_yields_acting hn hlast).2 _ hresult
        cases hnext
      · rfl
    refine suspends_of_acting hpath hn hcompleted ?_
    refine List.forall_mem_append.mpr ⟨List.forall_mem_append.mpr ⟨hfirst, acting_not_insertion hn hlast⟩, ?_⟩
    simp [Request.IsInsertion]

/-- A run that comes to its end goes along a path of edges from its start. With the report that it gives, unless the
counters cannot be stored, it is suspended as it should be, if at all. -/
theorem suspends_of_yields {ms : List (String × Json)} (hcontext : f.eventContext = .obj ms) {limit : Nat}
    {resumeFrom : Option String} {log : List Exchange} {x : Except RunError RunReport}
    (h : (f.run settings limit resumeFrom).Yields log x) : ∃ (path : List Node) (report : RunReport),
      (∀ r, x = .ok r → r = report) ∧ report.visited = path.map (·.id) ∧ path.head? = f.start? resumeFrom ∧
      path.IsChain f.automation.Joins ∧ f.Suspends path log report := by
  cases run_yields_iff.mp h with
  | nowhere start => exact ⟨[], _, fun r hr => (Except.ok.inj hr).symm, rfl, start.symm, .nil, suspends_nowhere⟩
  | @walked n legs outcome start walked within merged =>
    refine ⟨legs.map (·.node), f.report legs outcome, fun r hr => ?_, ?_, ?_, walked.isChain,
      walked.suspends hcontext merged⟩
    · cases merged <;> cases hr
      rfl
    · rw [report, Leg.visited, List.map_map]
      rfl
    · obtain ⟨leg, rest, rfl, rfl⟩ := walked.head
      exact start.symm

def twoDays : Automation :=
  ⟨default, default, "welcome", .active,
    [⟨"t", .trigger (.webhook "hook" false none), none⟩, ⟨"w", .action (.wait 2 .days), none⟩,
      ⟨"a", .action (.addTag "vip"), none⟩],
    [⟨none, "t", "w", none⟩, ⟨none, "w", "a", none⟩], ⟨1717408800, 0⟩, true, false, []⟩

theorem suspends_of_twoDays : (trial twoDays 2).eventContext = .obj [("contactId", .int 1)] ∧ ∃ log x t,
    ((trial twoDays 2).run Surroundings.offline.settings 8 none).Yields log x ∧
    log.filterMap Exchange.stored? = [(t, 1)] ∧ t.resumeFromNodeId = "a" ∧
    t.context.get? forwardDepthKey = some (.nat 2) := by
  let run := ((trial twoDays 2).run Surroundings.offline.settings 8 none).run.run
    (Service.answer .offline) (.holding (trial twoDays 2))
  have hrun : (run.bind fun x => x.1.toOption.map (·.outcome)) = some (.suspended 1 "a") := by decide
  obtain ⟨⟨x, s'⟩, hx, houtcome⟩ := Option.bind_eq_some_iff.mp hrun
  obtain ⟨log, hlog⟩ := Program.exists_yields hx
  obtain ⟨path, report, hreport, -, -, -, hsuspends⟩ := suspends_of_yields rfl hlog
  cases x with
  | error e => cases houtcome
  | ok r =>
    have hsuspended : report.outcome = .suspended 1 "a" := by
      rw [← hreport r rfl]
      exact Option.some.inj houtcome
    obtain ⟨w, delay, unit, now, t, before, merged, -, -, ht, -, -, hstored⟩ := hsuspends.suspended 1 "a" hsuspended
    exact ⟨rfl, log, _, t, hlog, hstored, ht.target, ht.depth⟩

end RunFrame
end Outreach
