import Outreach.Engine.Management
import Outreach.Proofs.Service.Dispatch

/-! Where the runs of an event begin: each at the first trigger node of its automation, from where it stays on the edges.
Any trigger of the automation lets the event start it, so that the run of an automation with several of them can begin at
one that the event does not pass. -/
namespace Outreach
open Program

theorem Automation.exists_triggerNode {a : Automation} {t : Trigger} {others : List Trigger}
    (h : a.triggers = t :: others) : ∃ n, a.triggerNode? = some n ∧ n.data = .trigger t := by
  unfold triggers at h
  unfold triggerNode?
  generalize a.nodes = nodes at h
  induction nodes with
  | nil => cases h
  | cons n rest ih =>
    cases hn : n.data with
    | trigger u =>
      have hfirst : u = t := by
        rw [List.filterMap_cons, Node.trigger?, hn] at h
        exact (List.cons.inj h).1
      exact ⟨n, by simp [Node.kind, NodeData.kind, hn], hfirst ▸ hn⟩
    | action b =>
      have hrest : rest.filterMap Node.trigger? = t :: others := by
        rwa [List.filterMap_cons, Node.trigger?, hn] at h
      simpa [Node.kind, NodeData.kind, hn] using ih hrest

structure FreshRun where
  automation : Automation
  legs : List Leg
  outcome : RunOutcome
  merged : Except RepositoryError Unit

namespace FreshRun
variable (run : FreshRun)

def log : List Exchange :=
  Leg.log run.legs ++ [⟨.mergeStats run.automation.id (Leg.counts run.legs), run.merged⟩]

def result : Except RunError RunReport :=
  (run.merged.mapError (RunError.mk run.automation.id)).map fun _ =>
    ⟨run.automation.id, Leg.visited run.legs, Leg.counts run.legs, run.outcome⟩

variable (settings : EngineSettings) (event : Event) (contact : Contact) (context : Json) (connection : Connection)

/-- It walks from the first trigger node of an automation that the event starts, and comes only to nodes that edges lead
to from there. -/
structure Begins (n : Node) : Prop where
  starts : run.automation.Starts event contact
  first : run.automation.triggerNode? = some n
  passed : ∃ t others, n.data = .trigger t ∧ run.automation.triggers = t :: others ∧
    (t.Passes event ∨ ∃ u ∈ others, u.Passes event)
  walked : RunFrame.Walked settings ⟨run.automation, contact, context, connection, forwardDepth context⟩ n run.legs
    run.outcome
  reached : ∀ leg ∈ run.legs, Relation.ReflTransGen run.automation.Joins n leg.node

variable {run settings event contact context connection}

/-- With a single trigger it begins at one that the event has passed. -/
theorem Begins.passes_of_single {n : Node} (h : run.Begins settings event contact context connection n) {t : Trigger}
    (hsingle : run.automation.triggers = [t]) : t.Passes event := by
  obtain ⟨u, hu, hpasses⟩ := h.starts.passes
  rw [hsingle, List.mem_singleton] at hu
  exact hu ▸ hpasses

end FreshRun

section
variable {settings : EngineSettings} {limit : Nat} {l : List Exchange}

/-- A walk comes to nothing but what the edges lead to. -/
theorem RunFrame.Walked.reached {f : RunFrame} {n : Node} {legs : List Leg} {outcome : RunOutcome}
    (h : f.Walked settings n legs outcome) : ∀ leg ∈ legs, Relation.ReflTransGen f.automation.Joins n leg.node := by
  induction h with
  | failed | suspended | ended => exact List.forall_mem_singleton.mpr .refl
  | @moved n m l target legs outcome visit found rest ih =>
    have hjoins : f.automation.Joins n m := by
      have hchain := (Walked.moved visit found rest).isChain
      obtain ⟨leg, others, rfl, rfl⟩ := rest.head
      exact (List.isChain_cons_cons.mp hchain).1
    exact List.forall_mem_cons.mpr ⟨.refl, fun leg hleg => (ih leg hleg).head hjoins⟩

variable {event : Event} {contact : Contact} {context : Json} {connection : Connection}

theorem exists_freshRun {a : Automation} (ha : a.Starts event contact) {x : Except RunError RunReport}
    (h : (execute settings limit a contact context connection none).Yields l x) :
    ∃ run : FreshRun, run.automation = a ∧ run.log = l ∧ run.result = x ∧
      ∃ n, run.Begins settings event contact context connection n := by
  obtain ⟨u, hu, hpasses⟩ := ha.passes
  cases htriggers : a.triggers with
  | nil => exact absurd (htriggers ▸ hu) List.not_mem_nil
  | cons t others =>
    obtain ⟨n, hn, ht⟩ := Automation.exists_triggerNode htriggers
    have hsome : t.Passes event ∨ ∃ u ∈ others, u.Passes event := by
      rw [htriggers, List.mem_cons] at hu
      obtain rfl | hu := hu
      · exact .inl hpasses
      · exact .inr ⟨u, hu, hpasses⟩
    cases RunFrame.run_yields_iff.mp h with
    | nowhere start => cases hn.symm.trans start
    | walked start walked within merged =>
      cases hn.symm.trans start
      exact ⟨⟨a, _, _, merged⟩, rfl, rfl, rfl, n, ha, hn, ⟨t, others, ht, htriggers, hsome⟩, walked, walked.reached⟩

/-- The automations are run one after the other, each from its first trigger node. -/
theorem RanEach.exists_freshRuns {automations : List Automation} {attempts : List (Except RunError RunReport)}
    (h : RanEach settings limit contact context connection automations l attempts)
    (hstarts : ∀ a ∈ automations, a.Starts event contact) :
    ∃ runs : List FreshRun, runs.map (·.automation) = automations ∧ runs.flatMap (·.log) = l ∧
      runs.map (·.result) = attempts ∧ ∀ run ∈ runs, ∃ n, run.Begins settings event contact context connection n := by
  induction h with
  | nil => exact ⟨[], rfl, rfl, rfl, List.forall_mem_nil _⟩
  | cons run others ih =>
    obtain ⟨ha, hrest⟩ := List.forall_mem_cons.mp hstarts
    obtain ⟨first, rfl, rfl, rfl, hfirst⟩ := exists_freshRun ha run
    obtain ⟨runs, rfl, rfl, rfl, hruns⟩ := ih hrest
    exact ⟨first :: runs, rfl, rfl, rfl, List.forall_mem_cons.mpr ⟨hfirst, hruns⟩⟩

/-- All that is asked for when an event is fired are the lookups and then the runs of the automations that it starts. Each
begins at the first trigger node of its automation. The event passes the trigger there, or else one of the later ones. -/
theorem fire_begins {contactId : Int} {scope : Scope} {x : Except FireError DispatchReport}
    (h : (fire settings limit event contactId scope).Yields l x) :
    ∃ loading y, Loads contactId scope loading y ∧
      ((∀ contact connection automations, y ≠ .ok (.go contact connection automations)) →
        l = loading ∧ ∀ report, x = .ok report → report.runs = [] ∧ report.failures = []) ∧
      ∀ contact connection automations, y = .ok (.go contact connection automations) →
        ∃ runs : List FreshRun, runs.map (·.automation) = automations.filter (·.Starts event contact) ∧
          l = loading ++ runs.flatMap (·.log) ∧
          x = .ok (.noting ⟨runs.map (·.automation.id), [], [], none⟩ (runs.map (·.automation)) (runs.map (·.result))) ∧
          ∀ run ∈ runs, (∃ n, run.Begins settings event contact (event.context contactId) connection n) ∧
            ∀ t, run.automation.triggers = [t] → t.Passes event := by
  cases fire_yields_iff.mp h with
  | failed loads =>
    exact ⟨_, _, loads, fun _ => ⟨rfl, fun _ hreport => by cases hreport⟩, fun _ _ _ hgo => by cases hgo⟩
  | skipped loads =>
    refine ⟨_, _, loads, fun _ => ⟨rfl, fun _ hreport => ?_⟩, fun _ _ _ hgo => by cases hgo⟩
    cases hreport
    exact ⟨rfl, rfl⟩
  | @ran loading rest contact connection automations attempts loads hran =>
    refine ⟨_, _, loads, fun hnothing => absurd rfl (hnothing _ _ _), fun contact' connection' automations' hgo => ?_⟩
    cases hgo
    rw [selectAutomations_eq] at hran ⊢
    obtain ⟨runs, hautomations, rfl, rfl, hbegins⟩ := hran.exists_freshRuns fun a ha =>
      of_decide_eq_true (List.mem_filter.mp ha).2
    refine ⟨runs, hautomations, rfl, ?_, fun run hrun => ?_⟩
    · rw [← hautomations, List.map_map]
      rfl
    · obtain ⟨n, hn⟩ := hbegins run hrun
      exact ⟨⟨n, hn⟩, fun t => hn.passes_of_single⟩

end

open Service

def twoWays : Automation :=
  ⟨default, default, "two ways", .active,
    [⟨"new", .trigger .contactCreated, none⟩, ⟨"vip", .trigger (.tagAdded "vip"), none⟩], [], ⟨1717408800, 0⟩, true, false, []⟩

theorem fire_twoWays :
    ((fire Surroundings.offline.settings 8 (.tagAdded "vip") 1 .contactOwner).run.run (answer .offline)
      (.holding (.trial twoWays 0))).map (fun y => y.1.toOption.map fun report => report.runs.map (·.visited)) =
    some (some [["new"]]) := by
  decide +kernel

theorem exists_report_twoWays : ∃ report s',
    (fire Surroundings.offline.settings 8 (.tagAdded "vip") 1 .contactOwner).run.run (answer .offline)
      (.holding (.trial twoWays 0)) = some (.ok report, s') ∧ report.runs.map (·.visited) = [["new"]] := by
  obtain ⟨⟨x, s'⟩, hrun, hseen⟩ := Option.map_eq_some_iff.mp fire_twoWays
  obtain ⟨report, hx, hvisited⟩ := Option.map_eq_some_iff.mp hseen
  obtain rfl := eq_ok_of_toOption hx
  exact ⟨report, s', hrun, hvisited⟩

/-- What the tag starts begins at the trigger for new contacts. -/
theorem fire_begins_elsewhere : twoWays.fault? = none ∧ ∃ report s',
    (fire Surroundings.offline.settings 8 (.tagAdded "vip") 1 .contactOwner).run.run (answer .offline)
      (.holding (.trial twoWays 0)) = some (.ok report, s') ∧
    ∃ run ∈ report.runs, run.visited = ["new"] ∧
      (twoWays.node? "new").bind Node.trigger? = some .contactCreated ∧
      ¬ Trigger.contactCreated.Passes (.tagAdded "vip") := by
  obtain ⟨report, s', hrun, hvisited⟩ := exists_report_twoWays
  obtain ⟨run, hmem, hpath⟩ := List.mem_map.mp (hvisited ▸ List.mem_singleton_self ["new"])
  exact ⟨by decide, report, s', hrun, run, hmem, hpath, rfl, fun hpasses => by cases hpasses⟩

/-- The tag starts a run, which begins at the first trigger node. -/
theorem fire_begins_twoWays : ∃ l report,
    (fire Surroundings.offline.settings 8 (.tagAdded "vip") 1 .contactOwner).Yields l (.ok report) ∧
    report.runs.map (·.visited) = [["new"]] ∧ ∃ contact connection, ∃ run : FreshRun, ∃ n,
      run.Begins Surroundings.offline.settings (.tagAdded "vip") contact (Event.context (.tagAdded "vip") 1) connection n := by
  obtain ⟨report, s', hrun, hvisited⟩ := exists_report_twoWays
  obtain ⟨l, hyields⟩ := exists_yields hrun
  obtain ⟨loading, y, -, hnothing, hgo⟩ := fire_begins hyields
  refine ⟨l, report, hyields, hvisited, ?_⟩
  by_cases hy : ∃ contact connection automations, y = .ok (.go contact connection automations)
  · obtain ⟨contact, connection, automations, rfl⟩ := hy
    obtain ⟨runs, -, -, hreport, hbegins⟩ := hgo _ _ _ rfl
    cases runs with
    | nil =>
      cases hreport
      cases hvisited
    | cons run runs =>
      obtain ⟨n, hn⟩ := (hbegins run List.mem_cons_self).1
      exact ⟨contact, connection, run, n, hn⟩
  · have hnone := (hnothing fun contact connection automations h => hy ⟨contact, connection, automations, h⟩).2 report rfl
    rw [hnone.1] at hvisited
    cases hvisited

end Outreach
