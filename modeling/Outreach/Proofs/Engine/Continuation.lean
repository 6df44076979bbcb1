import Outreach.Proofs.Engine.Alike
import Outreach.Proofs.Engine.Suspending

/-! A run that is suspended and goes on later does what one run does of an automation in which the wait is passed by. -/
namespace Outreach

def bypass (w r target : String) : String := if target = w then r else target

theorem bypass_of_ne {w r target : String} (h : target ≠ w) : bypass w r target = target := if_neg h

def Automation.bypassing (a : Automation) (w r : String) : Automation :=
  { a with edges := a.edges.map (Edge.redirected (bypass w r)) }

def Automation.MayLead (a : Automation) (u v : String) : Prop :=
  ∃ n, a.node? u = some n ∧ v ∈ (Routes.classify a.edges).successors n

/-- A wait before `r`, which is there, and from where the wait is not reached again. -/
structure Automation.WaitsBefore (a : Automation) (w : Node) (r : String) : Prop where
  node : a.node? w.id = some w
  wait : w.IsWait
  route : (leaving a.edges w.id .straight).head? = some r
  next : ∃ n, a.node? r = some n
  unreachable : ¬ Relation.ReflTransGen a.MayLead r w.id

def RunReport.returned (report : RunReport) (merged : Except RepositoryError Unit) : Except RunError RunReport :=
  (merged.mapError (RunError.mk report.automationId)).map fun _ => report

/-- The report `one` tells what `first` and `second` tell together, but for the node `w`. -/
structure RunReport.Unites (w : String) (first second one : RunReport) : Prop where
  visited : one.visited = (first.visited ++ second.visited).filter (· ≠ w)
  outcome : one.outcome = second.outcome
  counters : ∀ n, n ≠ w → one.stats.counters n = (first.stats.counters n).add (second.stats.counters n)

namespace RunFrame
variable {settings : EngineSettings} {f g : RunFrame} {n m w : Node} {r : String} {legs more : List Leg}
  {outcome : RunOutcome}

def bypassing (f : RunFrame) (w r : String) : RunFrame := { f with automation := f.automation.bypassing w r }

theorem follows_bypassing (f : RunFrame) {context : Json} (h : f.eventContext.Alike context) (w r : String) :
    Follows (bypass w r) f { f with automation := f.automation.bypassing w r, eventContext := context } where
  contact := rfl
  connection := rfl
  depth := rfl
  context := h
  automationId := rfl
  nodes := rfl
  next := Routes.next?_redirected _ _
  branch := Routes.branch?_redirected _ _
  random := Routes.randomBranches_redirected _ _

theorem Walked.reaches (h : f.Walked settings n legs outcome) (hn : f.automation.node? n.id = some n) :
    ∀ leg ∈ legs, Relation.ReflTransGen f.automation.MayLead n.id leg.node.id ∧
      ∀ target ∈ f.routes.successors leg.node, Relation.ReflTransGen f.automation.MayLead n.id target := by
  have hhere {n : Node} (hn : f.automation.node? n.id = some n) :
      Relation.ReflTransGen f.automation.MayLead n.id n.id ∧
        ∀ target ∈ f.routes.successors n, Relation.ReflTransGen f.automation.MayLead n.id target :=
    ⟨.refl, fun target ht => .single ⟨n, hn, ht⟩⟩
  induction h with
  | failed visit => exact List.forall_mem_singleton.mpr (hhere hn)
  | suspended visit => exact List.forall_mem_singleton.mpr (hhere hn)
  | ended visit last => exact List.forall_mem_singleton.mpr (hhere hn)
  | @moved n m l target legs outcome visit found rest ih =>
    have hid := Automation.node?_id found
    have hstep : f.automation.MayLead n.id m.id := ⟨n, hn, hid ▸ (visit_mayCome visit rfl).next target rfl⟩
    refine List.forall_mem_cons.mpr ⟨hhere hn, fun leg hleg => ?_⟩
    obtain ⟨hleg, hsuccessors⟩ := ih (hid ▸ found) leg hleg
    exact ⟨.head hstep hleg, fun target ht => .head hstep (hsuccessors target ht)⟩

/-- A wait with a successor suspends the run, or it fails. -/
theorem visit_waitsBefore (hw : f.automation.WaitsBefore w r) {l : List Exchange} {advance : Advance}
    (h : (f.visit settings w).Yields l (.ok advance)) : ∃ now t id,
      l = [⟨.now, now⟩, ⟨.insertTask (f.taskAt r t), .ok id⟩] ∧ advance = .suspend id r := by
  obtain ⟨delay, unit, hdata⟩ := hw.wait
  obtain ⟨now, rest, rfl, hend⟩ := (visit_yields_wait hdata).mp h
  have hroute : f.routes.next? w.id = some r := (Routes.next?_classify _ _).trans hw.route
  cases hend with
  | last range route => cases hroute.symm.trans route
  | stored range route id =>
    cases hroute.symm.trans route
    exact ⟨now, _, id, rfl, rfl⟩

theorem Walked.eq_singleton (hw : f.automation.WaitsBefore w r) (h : f.Walked settings w legs outcome) :
    ∃ l x, legs = [⟨w, l, x⟩] := by
  cases h with
  | failed visit => exact ⟨_, _, rfl⟩
  | suspended visit => exact ⟨_, _, rfl⟩
  | ended visit last => exact ⟨_, _, rfl⟩
  | moved visit found rest =>
    obtain ⟨now, t, id, -, hadvance⟩ := visit_waitsBefore hw visit
    cases hadvance

/-- Until a walk comes to the wait, it goes where a walk goes that passes it by; and there the latter is at `r`. -/
theorem Walked.detour (hw : f.automation.WaitsBefore w r) (hf : f.Follows (bypass w.id r) g) (hn : n.id ≠ w.id)
    (h : f.Walked settings n legs outcome) (hlast : (Leg.visited legs).getLast? = some w.id) :
    ∃ before before' last, legs = before ++ [last] ∧ last.node = w ∧ w.id ∉ Leg.visited before ∧
      List.Forall₂ Leg.Alike before before' ∧ ∀ m more outcome', f.automation.node? r = some m →
        g.Walked settings m more outcome' → g.Walked settings n (before' ++ more) outcome' := by
  induction h with
  | failed visit => exact absurd (Option.some.inj hlast) hn
  | suspended visit => exact absurd (Option.some.inj hlast) hn
  | ended visit last => exact absurd (Option.some.inj hlast) hn
  | @moved n m l target legs outcome visit found rest ih =>
    have hwait : ¬ n.IsWait := by
      rintro ⟨delay, unit, hdata⟩
      obtain ⟨now, rest, rfl, hend⟩ := (visit_yields_wait hdata).mp visit
      cases hend
    obtain ⟨l', hl, hvisit⟩ := hf.visit n (fun h => absurd h hwait) l _ visit
    have hfirst : Leg.Alike ⟨n, l, .ok (.next (some target))⟩ ⟨n, l', .ok (.next (some (bypass w.id r target)))⟩ :=
      ⟨rfl, hl, rfl⟩
    have hid := Automation.node?_id found
    have hlast' : (Leg.visited legs).getLast? = some w.id := by
      rw [← hlast, Leg.visited, Leg.visited, List.map_cons, List.getLast?_cons_of_ne_nil]
      exact fun h => rest.ne_nil (List.map_eq_nil_iff.mp h)
    -- The next node is the wait, with which the walk ends, or the wait comes later on.
    by_cases hm : m.id = w.id
    · have htarget : target = w.id := hid.symm.trans hm
      have hmw : m = w := Option.some.inj (found.symm.trans (htarget ▸ hw.node))
      obtain ⟨l₂, x, rfl⟩ := Walked.eq_singleton hw (hmw ▸ rest)
      refine ⟨[⟨n, l, _⟩], _, ⟨w, l₂, x⟩, rfl, rfl, ?_, .cons hfirst .nil, fun m' more outcome' hm' hmore => ?_⟩
      · exact fun h => hn (List.mem_singleton.mp h).symm
      · have hbypass : bypass w.id r target = r := if_pos htarget
        exact .moved hvisit ((hf.node? _).trans (by rw [hbypass]; exact hm')) hmore
    · have hbypass : bypass w.id r target = target := bypass_of_ne fun h => hm (hid.trans h)
      obtain ⟨before, before', last, rfl, hnode, hnot, halike, hgo⟩ := ih hm hlast'
      refine ⟨_ :: before, _ :: before', last, rfl, hnode, ?_, .cons hfirst halike, fun m' more outcome' hm' hmore => ?_⟩
      · exact fun h => (List.mem_cons.mp h).elim (fun h => hn h.symm) hnot
      · exact .moved hvisit ((hf.node? _).trans (hbypass.symm ▸ found)) (hgo m' more outcome' hm' hmore)

/-- A walk that is suspended by the wait has stored the task of the wait, and no other. -/
theorem Walked.paused (hw : f.automation.WaitsBefore w r) {before : List Leg} {last : Leg} {id : Int} {target : String}
    (h : f.Walked settings n (before ++ [last]) (.suspended id target)) (hnode : last.node = w) :
    ∃ now t, Leg.log (before ++ [last]) = Leg.log before ++ [⟨.now, now⟩, ⟨.insertTask (f.taskAt r t), .ok id⟩] ∧
      (Leg.log before).filterMap Exchange.stored? = [] := by
  obtain ⟨before', last', heq, houtcome, hmoves⟩ := h.exists_last
  obtain ⟨rfl, hlast⟩ := List.append_inj' heq rfl
  cases hlast
  have hvisit := h.visits last (List.mem_append_right _ List.mem_cons_self)
  have hresult : last.result = .ok (.suspend id target) := by
    unfold Leg.outcome at houtcome
    split at houtcome
    · rename_i hresult
      cases houtcome
      exact hresult
    · cases houtcome
  rw [hnode, hresult] at hvisit
  obtain ⟨now, t, id', hexchanges, hadvance⟩ := visit_waitsBefore hw hvisit
  cases hadvance
  refine ⟨now, t, ?_, filterMap_stored? (h.log_not_insertion hmoves)⟩
  rw [Leg.log_append, Leg.log_cons, hexchanges]
  rfl

/-- A walk from where the wait leads never comes to it, and goes as if it were passed by. -/
theorem Follows.continued (hf : f.Follows (bypass w.id r) g) (hw : f.automation.WaitsBefore w r)
    (hm : f.automation.node? r = some m) (h : f.Walked settings m legs outcome) : w.id ∉ Leg.visited legs ∧
      ∃ legs', List.Forall₂ Leg.Alike legs legs' ∧ g.Walked settings m legs' outcome := by
  have hid := Automation.node?_id hm
  have hreaches := h.reaches (hid ▸ hm)
  rw [hid] at hreaches
  constructor
  · intro hmem
    obtain ⟨leg, hleg, heq⟩ := List.mem_map.mp hmem
    exact hw.unreachable (heq ▸ (hreaches leg hleg).1)
  · refine hf.walked h fun leg hleg target htarget => bypass_of_ne ?_
    rintro rfl
    exact hw.unreachable ((hreaches leg hleg).2 _ htarget)

theorem unites_report {before : List Leg} {last : Leg} (hlast : last.node = w) (hbefore : w.id ∉ Leg.visited before)
    (hmore : w.id ∉ Leg.visited more) (outcome₁ : RunOutcome) {legs : List Leg}
    (halike : List.Forall₂ Leg.Alike (before ++ more) legs) :
    RunReport.Unites w.id (f.report (before ++ [last]) outcome₁) (f.report more outcome) (g.report legs outcome) := by
  have hother {l : List Leg} (h : w.id ∉ Leg.visited l) : (Leg.visited l).filter (· ≠ w.id) = Leg.visited l :=
    List.filter_eq_self.mpr fun id hid => decide_eq_true fun heq => h (heq ▸ hid)
  refine ⟨?_, rfl, fun n hn => ?_⟩
  · have hnone : (Leg.visited [last]).filter (· ≠ w.id) = [] := by simp [Leg.visited, hlast]
    rw [report, report, report, Leg.visited_alike halike, Leg.visited_append, Leg.visited_append, List.filter_append,
      List.filter_append, hother hbefore, hnone, hother hmore, List.append_nil]
  · have hzero : Leg.tally [last] n = .zero := if_neg fun h => hn (h.symm.trans (congrArg Node.id hlast))
    simp only [report, Leg.counters_counts, Leg.counts_alike halike, Leg.tally_append, hzero, NodeStats.add_zero]

/-- What a run does up to a wait, and the run that goes on with the task that was stored, is what one run does that
passes the wait by. The runs that are forwarded do the same as well. -/
theorem continues_of_resumed (hw : f.automation.WaitsBefore w r) (hcanonical : f.eventContext.Canonical)
    (hobject : f.depth = 0 ∨ ∃ ms, f.eventContext = .obj ms) (hdepth : f.depth < 2 ^ 32) {resumeFrom : Option String}
    (hstart : ∀ n ∈ f.start? resumeFrom, n.id ≠ w.id) {limit₁ limit₂ : Nat} {log₁ log₂ : List Exchange}
    {first : RunReport} {x : Except RunError RunReport} {id : Int} {target : String} {t : NewTask}
    (hfirst : (f.run settings limit₁ resumeFrom).Yields log₁ (.ok first))
    (hsuspended : first.outcome = .suspended id target) (hlast : first.visited.getLast? = some w.id)
    (hstored : (t, id) ∈ log₁.filterMap Exchange.stored?)
    (hsecond : (execute settings limit₂ f.automation f.contact t.context f.connection
      (some t.resumeFromNodeId)).Yields log₂ x) :
    ∃ before after log now merged second one,
      log₁ = before ++ [⟨.now, now⟩, ⟨.insertTask t, .ok id⟩, ⟨.mergeStats f.automation.id first.stats, .ok ()⟩] ∧
      log₂ = after ++ [⟨.mergeStats f.automation.id second.stats, merged⟩] ∧ x = second.returned merged ∧
      forwardDepth t.context = f.depth ∧ LogsAlike (before ++ after) log ∧
      (∀ a b limit l, ForwardedRun.Alike a b → (a.execute settings limit).Yields l () →
        ∃ l', LogsAlike l l' ∧ (b.execute settings limit).Yields l' ()) ∧
      first.Unites w.id second one ∧
      ∀ limit, limit₁ + limit₂ ≤ limit → ((f.bypassing w.id r).run settings limit resumeFrom).Yields
        (log ++ [⟨.mergeStats f.automation.id one.stats, merged⟩]) (one.returned merged) := by
  generalize hx : Except.ok first = y at hfirst
  cases run_yields_iff.mp hfirst with
  | nowhere start =>
    cases hx
    cases hsuspended
  | @walked n legs outcome start walked within merged₁ =>
    cases merged₁ with
    | error e => cases hx
    | ok _ =>
      cases hx
      -- The first run goes as the run past the wait does, until the wait stores the task.
      have hf : f.Follows (bypass w.id r) (f.bypassing w.id r) := follows_bypassing f (.refl _) w.id r
      obtain ⟨before, before', last, rfl, hnode, hnot, halike, hgo⟩ := walked.detour hw hf (hstart n start) hlast
      have houtcome : outcome = .suspended id target := hsuspended
      subst houtcome
      obtain ⟨now, u, hlog, hnone⟩ := walked.paused hw hnode
      have ht : t = f.taskAt r u := by
        rw [hlog, List.append_assoc, List.filterMap_append, hnone] at hstored
        exact congrArg Prod.fst (List.mem_singleton.mp hstored)
      have hcontext : t.context = suspendedContext f.eventContext f.depth := by rw [ht, taskAt]
      have hback : forwardDepth t.context = f.depth := by rw [hcontext, forwardDepth_suspendedContext hobject hdepth]
      have htarget : t.resumeFromNodeId = r := by rw [ht, taskAt]
      rw [execute, hback, htarget] at hsecond
      have hfollows : Follows (bypass w.id r) ⟨f.automation, f.contact, t.context, f.connection, f.depth⟩
          (f.bypassing w.id r) :=
        follows_bypassing _ (fun d => by rw [hcontext, suspendedContext_suspended hcanonical]) w.id r
      obtain ⟨m, hm⟩ := hw.next
      cases run_yields_iff.mp hsecond with
      | nowhere start => cases start.symm.trans hm
      | @walked m' more outcome' start' walked' within' merged =>
        -- The second run starts where the wait leads and never comes back to it, so it goes as the run past the wait.
        obtain ⟨hmore, more', halike', hwalked'⟩ := hfollows.continued hw start' walked'
        have hlegs : List.Forall₂ Leg.Alike (before ++ more) (before' ++ more') := List.rel_append halike halike'
        have hone := hgo m' more' outcome' start' hwalked'
        refine ⟨Leg.log before, Leg.log more, Leg.log (before' ++ more'), now, merged, f.report more outcome',
          (f.bypassing w.id r).report (before' ++ more') outcome', ?_, rfl, rfl, hback, ?_,
          fun a b limit l hab => hab.execute settings limit, unites_report hnode hnot hmore _ hlegs,
          fun limit hlimit => ?_⟩
        · rw [hlog, ht, List.append_assoc]
          rfl
        · rw [← Leg.log_append]
          exact Leg.log_alike hlegs
        · have hwithin : (before' ++ more').length ≤ limit := by
            rw [← hlegs.length_eq, List.length_append]
            rw [List.length_append] at within
            omega
          exact run_yields_iff.mpr (.walked ((hf.start? resumeFrom).trans start) hone hwithin merged)

theorem waitsBefore_twoDays : twoDays.WaitsBefore ⟨"w", .action (.wait 2 .days), none⟩ "a" where
  node := rfl
  wait := ⟨2, .days, rfl⟩
  route := by decide
  next := ⟨_, rfl⟩
  unreachable h := by
    obtain heq | ⟨v, ⟨n, hn, hv⟩, -⟩ := h.cases_head
    · exact absurd heq (by decide)
    · cases hn
      have hnone : (Routes.classify twoDays.edges).successors ⟨"a", .action (.addTag "vip"), none⟩ = [] := by
        decide
      rw [hnone] at hv
      cases hv

/-- The tag after the wait of two days is added in one run that goes to it at once. -/
theorem continues_of_twoDays : ∃ (log : List Exchange) (one : RunReport),
    (((trial twoDays 1).bypassing "w" "a").run Surroundings.offline.settings 16 none).Yields log (.ok one) ∧
      one.visited = ["t", "a"] ∧ one.outcome = .completed := by
  let f := trial twoDays 1
  let w : Node := ⟨"w", .action (.wait 2 .days), none⟩
  let now : Instant := ⟨1717408800, 0⟩
  let t := f.taskAt "a" ⟨1717581600, 0⟩
  have hwait : (f.visit Surroundings.offline.settings w).Yields [⟨.now, now⟩, ⟨.insertTask t, .ok 1⟩]
      (.ok (.suspend 1 "a")) :=
    (visit_yields_wait rfl).mpr ⟨now, _, rfl, .stored (by decide) (by decide) 1⟩
  have hfirst := run_yields_iff.mpr
    (.walked (by rfl : f.start? none = some ⟨"t", .trigger (.webhook "hook" false none), none⟩)
      (.moved ((visit_yields_trigger rfl).mpr ⟨rfl, rfl⟩) rfl (.suspended hwait)) (by decide : 2 ≤ 8) (.ok ()))
  have hcanonical : f.eventContext.Canonical := ⟨.cons (List.forall_mem_nil _) .nil, trivial, trivial⟩
  let run := (execute Surroundings.offline.settings 8 twoDays f.contact t.context f.connection
    (some t.resumeFromNodeId)).run.run (Service.answer .offline) (.holding f)
  have hrun : (run.bind fun x => x.1.toOption.map fun r => (r.visited, r.outcome)) = some (["a"], .completed) := by
    decide
  obtain ⟨⟨x, s'⟩, hx, hreport⟩ := Option.bind_eq_some_iff.mp hrun
  obtain ⟨log₂, hsecond⟩ := Program.exists_yields hx
  obtain ⟨before, after, log, now, merged, second, one, -, -, hreturned, -, -, -, hunites, hone⟩ :=
    continues_of_resumed waitsBefore_twoDays hcanonical (.inr ⟨_, rfl⟩) (by decide)
      (fun n hn => by cases hn; decide) hfirst rfl rfl (List.mem_singleton.mpr rfl) hsecond
  rw [hreturned] at hreport
  cases merged with
  | error e => cases hreport
  | ok _ =>
    have hsecond := Option.some.inj hreport
    have hvisited : second.visited = ["a"] := congrArg Prod.fst hsecond
    have houtcome : second.outcome = .completed := congrArg Prod.snd hsecond
    refine ⟨_, one, hone 16 le_rfl, ?_, hunites.outcome.trans houtcome⟩
    rw [hunites.visited, hvisited]
    decide

end RunFrame
end Outreach
