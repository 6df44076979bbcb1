import Outreach.Proofs.Engine.Contexts
import Outreach.Proofs.Engine.Walk

/-! Runs that behave alike. A run does not depend on the depth that its event context hides, and where only its edges
lead elsewhere, it does the same on its way there. -/
namespace Outreach

theorem suspendedContext_suspended {j : Json} (h : j.Canonical) (d depth : Nat) :
    suspendedContext (suspendedContext j d) depth = suspendedContext j depth := by
  cases j with
  | obj ms =>
    simp only [suspendedContext]
    congr 1
    by_cases hd : 0 < d <;> by_cases hdepth : 0 < depth
    · simp only [if_pos hd, if_pos hdepth, Keyed.put_put]
    · simp only [if_pos hd, if_neg hdepth, Keyed.erase_put]
    · simp only [if_neg hd, if_pos hdepth, Keyed.put_erase h.1]
    · simp only [if_neg hd, if_neg hdepth, Keyed.erase_erase]
  | _ => rfl

theorem forwardDepth_suspendedContext {j : Json} {d : Nat} (h : d = 0 ∨ ∃ ms, j = .obj ms) (hd : d < 2 ^ 32) :
    forwardDepth (suspendedContext j d) = d := by
  obtain rfl | ⟨ms, rfl⟩ := h
  · refine forwardDepth_of_get? ?_ hd
    cases j with
    | obj ms => exact get?_suspendedContext ms 0
    | _ => rfl
  · exact forwardDepth_of_get? (get?_suspendedContext ms d) hd

def Json.Alike (j k : Json) : Prop := ∀ depth, suspendedContext j depth = suspendedContext k depth

theorem Json.Alike.refl (j : Json) : j.Alike j := fun _ => rfl

theorem Json.Alike.runContext {j k : Json} (h : j.Alike k) (contact : Contact) :
    runContext contact j = runContext contact k := by
  have hzero := h 0
  cases j <;> cases k <;> simp_all [suspendedContext, Outreach.runContext]

structure ForwardedRun.Alike (r r' : ForwardedRun) : Prop where
  automation : r'.automation = r.automation
  contact : r'.contact = r.contact
  connection : r'.connection = r.connection
  depth : r'.depth = r.depth
  context : r.eventContext.Alike r'.eventContext

inductive Exchange.Alike : Exchange → Exchange → Prop where
  | same (e : Exchange) : Alike e e
  | forward {r r' : ForwardedRun} (alike : r.Alike r') : Alike ⟨.spawn r, ()⟩ ⟨.spawn r', ()⟩

abbrev LogsAlike : List Exchange → List Exchange → Prop := List.Forall₂ Exchange.Alike

theorem LogsAlike.refl (l : List Exchange) : LogsAlike l l := List.forall₂_same.mpr fun e _ => .same e

namespace Attempt
variable {ε α β γ : Type} {φ : α → γ}

/-- Whatever `p` does, `q` does alike with the same answers, and comes to the same result put through `φ`. -/
def Mimics (φ : α → γ) (p : Attempt ε α) (q : Attempt ε γ) : Prop :=
  ∀ l x, p.Yields l x → ∃ l', LogsAlike l l' ∧ q.Yields l' (x.map φ)

theorem mimics_pure (a : α) : Mimics φ (pure a : Attempt ε α) (pure (φ a)) := by
  rintro l x ⟨rfl, rfl⟩
  exact ⟨[], .nil, rfl, rfl⟩

theorem mimics_refl (p : Attempt ε α) : Mimics id p p := by
  intro l x h
  exact ⟨l, .refl l, by cases x <;> exact h⟩

theorem mimics_bind {δ : Type} {ψ : β → δ} {p : Attempt ε β} {p' : Attempt ε δ} {q : β → Attempt ε α}
    {q' : δ → Attempt ε γ} (hp : Mimics ψ p p') (hq : ∀ a l, p.Yields l (.ok a) → Mimics φ (q a) (q' (ψ a))) :
    Mimics φ (p >>= q) (p' >>= q') := by
  intro l x h
  obtain ⟨e, he, rfl⟩ | ⟨a, l₁, l₂, rfl, ha, hrest⟩ := yields_bind.mp h
  · obtain ⟨l', hl', he'⟩ := hp l _ he
    exact ⟨l', hl', yields_bind.mpr (.inl ⟨e, he', rfl⟩)⟩
  · obtain ⟨l₁', hl₁, ha'⟩ := hp l₁ _ ha
    obtain ⟨l₂', hl₂, hrest'⟩ := hq a l₁ ha l₂ x hrest
    exact ⟨l₁' ++ l₂', List.rel_append hl₁ hl₂, yields_bind.mpr (.inr ⟨ψ a, l₁', l₂', rfl, ha', hrest'⟩)⟩

end Attempt

def Advance.map (b : String → String) : Advance → Advance
  | .next target => .next (target.map b)
  | .suspend id target => .suspend id target

structure Leg.Alike (leg leg' : Leg) : Prop where
  node : leg'.node = leg.node
  exchanges : LogsAlike leg.exchanges leg'.exchanges
  result : leg'.result.isOk = leg.result.isOk

namespace Leg
variable {legs legs' : List Leg}

theorem Alike.count {leg leg' : Leg} (h : leg.Alike leg') (stats : ExecutionStats) :
    Leg.count stats leg' = Leg.count stats leg := by
  have hresult := h.result
  unfold Leg.count
  rw [h.node]
  cases hleg : leg.result <;> cases hleg' : leg'.result <;> rw [hleg, hleg'] at hresult <;>
    first | rfl | cases hresult

theorem visited_alike (h : List.Forall₂ Alike legs legs') : visited legs' = visited legs := by
  induction h with
  | nil => rfl
  | cons hleg _ ih => exact congrArg₂ List.cons (congrArg Node.id hleg.node) ih

theorem foldl_count_alike (h : List.Forall₂ Alike legs legs') (stats : ExecutionStats) :
    legs'.foldl count stats = legs.foldl count stats := by
  induction h generalizing stats with
  | nil => rfl
  | cons hleg _ ih => rw [List.foldl_cons, List.foldl_cons, hleg.count, ih]

theorem counts_alike (h : List.Forall₂ Alike legs legs') : counts legs' = counts legs := foldl_count_alike h []

theorem log_alike (h : List.Forall₂ Alike legs legs') : LogsAlike (log legs) (log legs') := by
  induction h with
  | nil => exact .nil
  | cons hleg _ ih =>
    rw [log_cons, log_cons]
    exact List.rel_append hleg.exchanges ih

end Leg

namespace RunFrame
variable {settings : EngineSettings} {b : String → String} {f g : RunFrame} {n : Node} {l : List Exchange}

structure Follows (b : String → String) (f g : RunFrame) : Prop where
  contact : g.contact = f.contact
  connection : g.connection = f.connection
  depth : g.depth = f.depth
  context : f.eventContext.Alike g.eventContext
  automationId : g.automation.id = f.automation.id
  nodes : g.automation.nodes = f.automation.nodes
  next : ∀ n, g.routes.next? n = (f.routes.next? n).map b
  branch : ∀ n value, g.routes.branch? n value = (f.routes.branch? n value).map b
  random : ∀ n, g.routes.randomBranches n = (f.routes.randomBranches n).map b

theorem Follows.taskAt (h : f.Follows b g) (next : String) (t : Instant) : g.taskAt next t = f.taskAt next t := by
  simp only [RunFrame.taskAt, h.contact, h.connection, h.automationId, h.depth, h.context f.depth]

theorem Follows.runContext (h : f.Follows b g) : g.context = f.context := by
  rw [RunFrame.context, RunFrame.context, h.contact, h.context.runContext]

theorem mimics_pick {ε : Type} (b : String → String) (targets : List String) : Attempt.Mimics (Option.map b)
    (match targets with
      | [] => return none
      | branches => do
        let i ← Attempt.always (.request (.pick branches.length))
        return branches[i]? : Attempt ε (Option String))
    (match targets.map b with
      | [] => return none
      | branches => do
        let i ← Attempt.always (.request (.pick branches.length))
        return branches[i]?) := by
  cases targets with
  | nil => exact Attempt.mimics_pure none
  | cons target targets =>
    have hpick (k : Nat) (hk : k = (target :: targets).length) : Attempt.Mimics (Option.map b)
        (do let i ← Attempt.always (.request (.pick (target :: targets).length)); return (target :: targets)[i]? :
          Attempt ε (Option String))
        (do let i ← Attempt.always (.request (.pick k)); return ((target :: targets).map b)[i]?) := by
      subst hk
      refine Attempt.mimics_bind (Attempt.mimics_refl _) fun i _ _ => ?_
      rw [List.getElem?_map]
      exact Attempt.mimics_pure _
    exact hpick _ (List.length_map b)

theorem Follows.successor (h : f.Follows b g) (n : String) (action : Action) :
    Attempt.Mimics (Option.map b) (f.successor settings n action) (g.successor settings n action) := by
  unfold RunFrame.successor
  split
  · rw [h.contact]
    refine Attempt.mimics_bind (Attempt.mimics_refl _) fun now _ _ => ?_
    refine Attempt.mimics_bind (Attempt.mimics_refl _) fun outcome _ _ => ?_
    rw [h.branch]
    exact Attempt.mimics_pure _
  · rw [h.random]
    exact mimics_pick b (f.routes.randomBranches n)
  · rw [h.next]
    exact Attempt.mimics_pure _

theorem Follows.forward (h : f.Follows b g) (target : Automation) :
    Attempt.Mimics id (Attempt.always (f.forward settings target) : Action.Attempt Unit)
      (Attempt.always (g.forward settings target)) := by
  unfold RunFrame.forward
  rw [h.depth]
  split
  · rintro l x hx
    obtain ⟨y, hy, rfl⟩ := Attempt.yields_always.mp hx
    cases Program.yields_request.mp hy
    have halike : ForwardedRun.Alike ⟨target, f.contact, f.eventContext, f.connection, f.depth + 1⟩
        ⟨target, g.contact, g.eventContext, g.connection, f.depth + 1⟩ :=
      ⟨rfl, h.contact, h.connection, rfl, h.context⟩
    exact ⟨_, .cons (.forward halike) .nil, Attempt.yields_always.mpr ⟨(), Program.yields_request.mpr rfl, rfl⟩⟩
  · exact Attempt.mimics_refl _

theorem isWait_of_perform {action : Action} {contact : Contact} {context : Json} {connection : Connection} {t : Instant}
    (hn : n.data = .action action) (h : (action.perform settings contact context connection).Yields l (.ok (.wait t))) :
    n.IsWait := by
  have hperform : Attempt.Meets ⟨fun _ => True, fun _ _ => True⟩ (fun outcome => ∀ u, outcome = .wait u → n.IsWait)
      (action.perform settings contact context connection) :=
    Action.perform_meets settings (Terms.allows_of_acting (fun _ _ => trivial) _ fun _ => True) action
      (fun _ _ => trivial) context connection (fun _ h => by cases h) (fun _ _ _ _ _ h => by cases h)
      fun delay unit _ haction _ _ _ => ⟨delay, unit, haction ▸ hn⟩
  exact (hperform.of_yields h fun _ _ => trivial).2 _ rfl t rfl

/-- A visit goes alike, provided that a wait stores the same task. -/
theorem Follows.visit (h : f.Follows b g) (n : Node)
    (hwait : n.IsWait → ∀ next ∈ f.routes.next? n.id, b next = next) :
    Attempt.Mimics (Advance.map b) (f.visit settings n) (g.visit settings n) := by
  unfold RunFrame.visit
  split
  · rw [h.next]
    exact Attempt.mimics_pure _
  · rename_i action hn
    rw [h.contact, h.connection, h.runContext]
    refine Attempt.mimics_bind (Attempt.mimics_refl _) fun outcome l hperform => ?_
    cases outcome with
    | completed => exact Attempt.mimics_bind (h.successor n.id action) fun next _ _ => Attempt.mimics_pure _
    | wait t =>
      have hfixed := hwait (isWait_of_perform hn hperform)
      dsimp only [id]
      rw [h.next]
      cases hnext : f.routes.next? n.id with
      | none => exact Attempt.mimics_pure _
      | some next =>
        rw [Option.map_some, hfixed next hnext]
        intro l x hx
        obtain ⟨y, rfl, rfl⟩ := suspend_yields.mp hx
        refine ⟨_, .refl _, suspend_yields.mpr ⟨y, by rw [h.taskAt], ?_⟩⟩
        cases y <;> rfl
    | forward target =>
      refine Attempt.mimics_bind (h.forward target) fun _ _ _ => ?_
      exact Attempt.mimics_bind (h.successor n.id action) fun next _ _ => Attempt.mimics_pure _

theorem Follows.node? (h : f.Follows b g) (id : String) : g.automation.node? id = f.automation.node? id := by
  rw [Automation.node?, h.nodes, Automation.node?]

theorem Follows.start? (h : f.Follows b g) (resumeFrom : Option String) : g.start? resumeFrom = f.start? resumeFrom := by
  cases resumeFrom with
  | none => rw [RunFrame.start?, RunFrame.start?, Automation.triggerNode?, h.nodes, Automation.triggerNode?]
  | some id => exact h.node? id

/-- Where `b` leaves the successors of a node alone, the leg from there is the same. -/
theorem Follows.leg (h : f.Follows b g) {x : Except ActionError Advance}
    (hfixed : ∀ target ∈ f.routes.successors n, b target = target) (hx : (f.visit settings n).Yields l x) :
    ∃ l', Leg.Alike ⟨n, l, x⟩ ⟨n, l', x⟩ ∧ (g.visit settings n).Yields l' x := by
  have hwait (hn : n.IsWait) : ∀ next ∈ f.routes.next? n.id, b next = next := fun next hnext =>
    hfixed next (by rw [Routes.successors_of_wait hn]; exact Option.mem_toList.mpr hnext)
  obtain ⟨l', hl, hx'⟩ := h.visit n hwait l x hx
  have hsame : x.map (Advance.map b) = x := by
    cases x with
    | error e => rfl
    | ok advance =>
      cases advance with
      | suspend id target => rfl
      | next target =>
        cases target with
        | none => rfl
        | some target =>
          have htarget := hfixed target ((visit_mayCome hx rfl).next target rfl)
          exact congrArg (fun t => Except.ok (Advance.next (some t))) htarget
  exact ⟨l', ⟨rfl, hl, rfl⟩, hsame ▸ hx'⟩

theorem Follows.walked (h : f.Follows b g) {legs : List Leg} {outcome : RunOutcome}
    (hwalked : f.Walked settings n legs outcome)
    (hfixed : ∀ leg ∈ legs, ∀ target ∈ f.routes.successors leg.node, b target = target) :
    ∃ legs', List.Forall₂ Leg.Alike legs legs' ∧ g.Walked settings n legs' outcome := by
  induction hwalked with
  | failed visit =>
    obtain ⟨l', hleg, hvisit⟩ := h.leg (hfixed _ List.mem_cons_self) visit
    exact ⟨_, .cons hleg .nil, .failed hvisit⟩
  | suspended visit =>
    obtain ⟨l', hleg, hvisit⟩ := h.leg (hfixed _ List.mem_cons_self) visit
    exact ⟨_, .cons hleg .nil, .suspended hvisit⟩
  | @ended n l next visit last =>
    obtain ⟨l', hleg, hvisit⟩ := h.leg (hfixed _ List.mem_cons_self) visit
    refine ⟨_, .cons hleg .nil, .ended hvisit ?_⟩
    rwa [funext h.node?]
  | moved visit found rest ih =>
    obtain ⟨hfirst, hrest⟩ := List.forall_mem_cons.mp hfixed
    obtain ⟨l', hleg, hvisit⟩ := h.leg hfirst visit
    obtain ⟨legs', hlegs, hwalked⟩ := ih hrest
    exact ⟨_, .cons hleg hlegs, .moved hvisit ((h.node? _).trans found) hwalked⟩

theorem Follows.run (h : f.Follows id g) (limit : Nat) (resumeFrom : Option String) {x : Except RunError RunReport}
    (hx : (f.run settings limit resumeFrom).Yields l x) :
    ∃ l', LogsAlike l l' ∧ (g.run settings limit resumeFrom).Yields l' x := by
  cases run_yields_iff.mp hx with
  | nowhere start =>
    refine ⟨[], .nil, run_yields_iff.mpr ?_⟩
    rw [← h.automationId]
    exact .nowhere ((h.start? resumeFrom).trans start)
  | @walked n legs outcome start walked within merged =>
    obtain ⟨legs', hlegs, hwalked⟩ := h.walked walked fun _ _ _ _ => rfl
    have hwithin : legs'.length ≤ limit := hlegs.length_eq ▸ within
    have hran := Ran.walked ((h.start? resumeFrom).trans start) hwalked hwithin merged
    have hreport : g.report legs' outcome = f.report legs outcome := by
      rw [report, Leg.visited_alike hlegs, Leg.counts_alike hlegs, h.automationId, report]
    rw [hreport, Leg.counts_alike hlegs, h.automationId] at hran
    exact ⟨_, List.rel_append (Leg.log_alike hlegs) (LogsAlike.refl _), run_yields_iff.mpr hran⟩

end RunFrame

theorem ForwardedRun.Alike.execute {r r' : ForwardedRun} (h : r.Alike r') (settings : EngineSettings) (limit : Nat)
    {l : List Exchange} (hl : (r.execute settings limit).Yields l ()) :
    ∃ l', LogsAlike l l' ∧ (r'.execute settings limit).Yields l' () := by
  obtain ⟨automation, contact, context, connection, depth⟩ := r
  obtain ⟨automation', contact', context', connection', depth'⟩ := r'
  obtain ⟨rfl, rfl, rfl, rfl, hcontext⟩ := h
  have hfollows : RunFrame.Follows id ⟨automation', contact', context, connection', depth'⟩
      ⟨automation', contact', context', connection', depth'⟩ :=
    ⟨rfl, rfl, rfl, hcontext, rfl, rfl, fun _ => by rw [Option.map_id]; rfl, fun _ _ => by rw [Option.map_id]; rfl,
      fun _ => by rw [List.map_id]; rfl⟩
  obtain ⟨x, l₁, l₂, rfl, hrun, rfl, -⟩ := Program.yields_bind.mp hl
  obtain ⟨l', hl', hrun'⟩ := hfollows.run limit none hrun
  exact ⟨l' ++ [], List.rel_append hl' .nil, Program.yields_bind.mpr ⟨x, l', [], rfl, hrun', rfl, rfl⟩⟩

end Outreach
