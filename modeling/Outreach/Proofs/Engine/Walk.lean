import Outreach.Proofs.Automation.Stats
import Outreach.Proofs.Engine.Visit

/-! A run as it went: one leg for each node that was visited. -/
namespace Outreach

structure Leg where
  node : Node
  exchanges : List Exchange
  result : Except ActionError Advance

namespace Leg

def count (stats : ExecutionStats) (leg : Leg) : ExecutionStats :=
  match leg.result with
  | .error _ => (stats.recordAttempt leg.node.id).recordError leg.node.id
  | .ok _ => (stats.recordAttempt leg.node.id).recordSuccess leg.node.id

def amount (leg : Leg) : NodeStats :=
  match leg.result with
  | .error _ => ⟨1, 0, 1⟩
  | .ok _ => ⟨1, 1, 0⟩

def outcome (leg : Leg) : RunOutcome :=
  match leg.result with
  | .ok (.suspend id target) => .suspended id target
  | _ => .completed

def visited (legs : List Leg) : List String := legs.map (·.node.id)

def counts (legs : List Leg) : ExecutionStats := legs.foldl count []

def log (legs : List Leg) : List Exchange := legs.flatMap (·.exchanges)

theorem log_cons (leg : Leg) (legs : List Leg) : log (leg :: legs) = leg.exchanges ++ log legs := List.flatMap_cons

theorem log_append (legs more : List Leg) : log (legs ++ more) = log legs ++ log more := List.flatMap_append

theorem visited_append (legs more : List Leg) : visited (legs ++ more) = visited legs ++ visited more :=
  List.map_append

def tally (legs : List Leg) (n : String) : NodeStats :=
  match legs with
  | [] => .zero
  | leg :: legs => if leg.node.id = n then leg.amount.add (tally legs n) else tally legs n

theorem tally_append (legs more : List Leg) (n : String) :
    tally (legs ++ more) n = (tally legs n).add (tally more n) := by
  induction legs with
  | nil => exact (NodeStats.zero_add _).symm
  | cons leg legs ih =>
    rw [List.cons_append, tally, tally, ih]
    split
    · exact (NodeStats.add_assoc _ _ _).symm
    · rfl

theorem total_tally (legs : List Leg) (n : String) : (tally legs n).total = (visited legs).count n := by
  induction legs with
  | nil => rfl
  | cons leg legs ih =>
    have hone : leg.amount.total = 1 := by unfold amount; split <;> rfl
    rw [tally, visited, List.map_cons, List.count_cons, ← visited, ← ih]
    by_cases hn : leg.node.id = n
    · rw [if_pos hn, if_pos (beq_iff_eq.mpr hn), NodeStats.add, hone, Nat.add_comm]
    · rw [if_neg hn, if_neg fun h => hn (beq_iff_eq.mp h), Nat.add_zero]

theorem split_tally (legs : List Leg) (n : String) :
    (tally legs n).success + (tally legs n).error = (tally legs n).total := by
  induction legs with
  | nil => rfl
  | cons leg legs ih =>
    have hone : leg.amount.success + leg.amount.error = leg.amount.total := by unfold amount; split <;> rfl
    rw [tally]
    split
    · simp only [NodeStats.add]
      omega
    · exact ih

theorem error_tally {legs : List Leg} (h : ∀ leg ∈ legs, ∃ target, leg.result = .ok (.next (some target)))
    (n : String) : (tally legs n).error = 0 := by
  induction legs with
  | nil => rfl
  | cons leg legs ih =>
    obtain ⟨⟨target, hresult⟩, hlegs⟩ := List.forall_mem_cons.mp h
    rw [tally]
    split
    · rw [NodeStats.add, ih hlegs, amount, hresult]
    · exact ih hlegs

theorem counters_count (stats : ExecutionStats) (leg : Leg) (n : String) :
    (count stats leg).counters n =
      if leg.node.id = n then (stats.counters n).add leg.amount else stats.counters n := by
  unfold count amount ExecutionStats.recordAttempt ExecutionStats.recordError ExecutionStats.recordSuccess
  by_cases hn : leg.node.id = n
  · split <;> simp [ExecutionStats.counters_increase, hn, NodeStats.add]
  · split <;> simp [ExecutionStats.counters_increase, hn]

theorem counters_foldl_count (stats : ExecutionStats) (legs : List Leg) (n : String) :
    (legs.foldl count stats).counters n = (stats.counters n).add (tally legs n) := by
  induction legs generalizing stats with
  | nil => rfl
  | cons leg legs ih =>
    rw [List.foldl_cons, ih, counters_count, tally]
    split
    · exact NodeStats.add_assoc _ _ _
    · rfl

theorem counters_counts (legs : List Leg) (n : String) : (counts legs).counters n = tally legs n :=
  (counters_foldl_count [] legs n).trans (NodeStats.zero_add _)

theorem count_ascending {stats : ExecutionStats} (h : Keyed.Ascending stats) (leg : Leg) :
    Keyed.Ascending (count stats leg) := by
  unfold count
  split <;> exact ExecutionStats.increase_ascending (ExecutionStats.increase_ascending h _ _) _ _

theorem errors_count {stats : ExecutionStats} (h : Keyed.Ascending stats) (leg : Leg) :
    (count stats leg).errors = stats.errors + leg.amount.error := by
  have hattempt := ExecutionStats.increase_ascending h leg.node.id ⟨1, 0, 0⟩
  unfold count amount
  split
  · exact (ExecutionStats.errors_increase hattempt _ _).trans (by rw [ExecutionStats.errors_increase h]; rfl)
  · exact (ExecutionStats.errors_increase hattempt _ _).trans (by rw [ExecutionStats.errors_increase h]; rfl)

theorem foldl_count_ascending {stats : ExecutionStats} (h : Keyed.Ascending stats) (legs : List Leg) :
    Keyed.Ascending (legs.foldl count stats) := by
  induction legs generalizing stats with
  | nil => exact h
  | cons leg legs ih => exact ih (count_ascending h leg)

theorem counts_ascending (legs : List Leg) : Keyed.Ascending (counts legs) := foldl_count_ascending Keyed.ascending_nil legs

theorem errors_foldl_count {stats : ExecutionStats} (h : Keyed.Ascending stats) (legs : List Leg) :
    (legs.foldl count stats).errors = stats.errors + (legs.map (·.amount.error)).sum := by
  induction legs generalizing stats with
  | nil => rfl
  | cons leg legs ih =>
    rw [List.foldl_cons, ih (count_ascending h leg), errors_count h, List.map_cons, List.sum_cons, Nat.add_assoc]

theorem errors_counts (legs : List Leg) : (counts legs).errors = (legs.map (·.amount.error)).sum :=
  (errors_foldl_count Keyed.ascending_nil legs).trans (Nat.zero_add _)

end Leg

def Automation.Joins (a : Automation) (u v : Node) : Prop :=
  a.node? v.id = some v ∧ ∃ e ∈ a.edges, e.source = u.id ∧ e.target = v.id ∧ u.LeftBy e.way

theorem Automation.node?_id {a : Automation} {id : String} {n : Node} (h : a.node? id = some n) : n.id = id := by
  simpa using List.find?_some h

namespace RunFrame
variable (settings : EngineSettings)

/-- The legs of a walk from a node, and how it came to its end. -/
inductive Walked (f : RunFrame) : Node → List Leg → RunOutcome → Prop where
  | failed {n : Node} {l : List Exchange} {e : ActionError} (visit : (f.visit settings n).Yields l (.error e)) :
    Walked f n [⟨n, l, .error e⟩] .completed
  | suspended {n : Node} {l : List Exchange} {id : Int} {target : String}
    (visit : (f.visit settings n).Yields l (.ok (.suspend id target))) :
    Walked f n [⟨n, l, .ok (.suspend id target)⟩] (.suspended id target)
  | ended {n : Node} {l : List Exchange} {next : Option String}
    (visit : (f.visit settings n).Yields l (.ok (.next next))) (last : next.bind f.automation.node? = none) :
    Walked f n [⟨n, l, .ok (.next next)⟩] .completed
  | moved {n m : Node} {l : List Exchange} {target : String} {legs : List Leg} {outcome : RunOutcome}
    (visit : (f.visit settings n).Yields l (.ok (.next (some target)))) (found : f.automation.node? target = some m)
    (rest : Walked f m legs outcome) : Walked f n (⟨n, l, .ok (.next (some target))⟩ :: legs) outcome

def start? (f : RunFrame) (resumeFrom : Option String) : Option Node :=
  match resumeFrom with
  | some id => f.automation.node? id
  | none => f.automation.triggerNode?

def report (f : RunFrame) (legs : List Leg) (outcome : RunOutcome) : RunReport :=
  ⟨f.automation.id, Leg.visited legs, Leg.counts legs, outcome⟩

inductive Ran (f : RunFrame) (limit : Nat) (resumeFrom : Option String) :
    List Exchange → Except RunError RunReport → Prop where
  | nowhere (start : f.start? resumeFrom = none) :
    Ran f limit resumeFrom [] (.ok ⟨f.automation.id, [], [], .noStartNode⟩)
  | walked {n : Node} {legs : List Leg} {outcome : RunOutcome} (start : f.start? resumeFrom = some n)
    (walked : f.Walked settings n legs outcome) (within : legs.length ≤ limit) (merged : Except RepositoryError Unit) :
    Ran f limit resumeFrom (Leg.log legs ++ [⟨.mergeStats f.automation.id (Leg.counts legs), merged⟩])
      ((merged.mapError (RunError.mk f.automation.id)).map fun _ => f.report legs outcome)

variable {settings} {f : RunFrame} {n : Node} {l : List Exchange} {limit : Nat}

theorem Walked.ne_nil {legs : List Leg} {outcome : RunOutcome} (h : f.Walked settings n legs outcome) : legs ≠ [] := by
  cases h <;> exact List.cons_ne_nil _ _

/-- All legs but the last move on, and the last tells how the walk came to its end. -/
theorem Walked.exists_last {legs : List Leg} {outcome : RunOutcome} (h : f.Walked settings n legs outcome) :
    ∃ before last, legs = before ++ [last] ∧ outcome = last.outcome ∧
      ∀ leg ∈ before, ∃ target, leg.result = .ok (.next (some target)) := by
  induction h with
  | failed visit => exact ⟨[], _, rfl, rfl, List.forall_mem_nil _⟩
  | suspended visit => exact ⟨[], _, rfl, rfl, List.forall_mem_nil _⟩
  | ended visit last => exact ⟨[], _, rfl, rfl, List.forall_mem_nil _⟩
  | moved visit found rest ih =>
    obtain ⟨before, last, rfl, houtcome, hbefore⟩ := ih
    exact ⟨_ :: before, last, rfl, houtcome, List.forall_mem_cons.mpr ⟨⟨_, rfl⟩, hbefore⟩⟩

theorem Walked.visits {legs : List Leg} {outcome : RunOutcome} (h : f.Walked settings n legs outcome) :
    ∀ leg ∈ legs, (f.visit settings leg.node).Yields leg.exchanges leg.result := by
  induction h with
  | failed visit => exact List.forall_mem_singleton.mpr visit
  | suspended visit => exact List.forall_mem_singleton.mpr visit
  | ended visit last => exact List.forall_mem_singleton.mpr visit
  | moved visit found rest ih => exact List.forall_mem_cons.mpr ⟨visit, ih⟩

theorem Walked.head {legs : List Leg} {outcome : RunOutcome} (h : f.Walked settings n legs outcome) :
    ∃ leg rest, legs = leg :: rest ∧ leg.node = n := by
  cases h <;> exact ⟨_, _, rfl, rfl⟩

theorem Walked.isChain {legs : List Leg} {outcome : RunOutcome} (h : f.Walked settings n legs outcome) :
    (legs.map (·.node)).IsChain f.automation.Joins := by
  induction h with
  | failed visit => exact .singleton _
  | suspended visit => exact .singleton _
  | ended visit last => exact .singleton _
  | @moved n m l target legs outcome visit found rest ih =>
    obtain ⟨leg, rest, rfl, rfl⟩ := rest.head
    have hid := Automation.node?_id found
    obtain ⟨e, he, hsource, htarget, hway⟩ := Routes.mem_successors_classify ((visit_mayCome visit rfl).next target rfl)
    exact .cons_cons ⟨hid ▸ found, e, he, hsource, htarget.trans hid.symm, hway⟩ ih

theorem walk_yields_iff {visited : List String} {stats : ExecutionStats}
    {y : List String × ExecutionStats × RunOutcome} : (f.walk settings limit n visited stats).Yields l y ↔
      ∃ legs outcome, f.Walked settings n legs outcome ∧ legs.length ≤ limit ∧ l = Leg.log legs ∧
        y = (visited ++ Leg.visited legs, legs.foldl Leg.count stats, outcome) := by
  -- One leg takes up one unit of the limit. From left to right the cases are those of the walk's match on where the
  -- node leads, from right to left the constructors of `Walked`.
  induction limit generalizing n l visited stats with
  | zero =>
    constructor
    · exact False.elim
    · rintro ⟨legs, outcome, hwalked, hlength, -⟩
      exact absurd (List.eq_nil_of_length_eq_zero (Nat.le_zero.mp hlength)) hwalked.ne_nil
  | succ limit ih =>
    rw [walk]
    refine Program.yields_bind.trans ?_
    constructor
    · rintro ⟨x, l₁, l₂, rfl, hvisit, hrest⟩
      split at hrest
      · obtain ⟨rfl, rfl⟩ := hrest
        exact ⟨_, _, .failed hvisit, Nat.succ_le_succ (Nat.zero_le _), by simp [Leg.log], rfl⟩
      · obtain ⟨rfl, rfl⟩ := hrest
        exact ⟨_, _, .suspended hvisit, Nat.succ_le_succ (Nat.zero_le _), by simp [Leg.log], rfl⟩
      · rename_i next
        dsimp only at hrest
        split at hrest
        · rename_i hnone
          obtain ⟨rfl, rfl⟩ := hrest
          exact ⟨_, _, .ended hvisit hnone, Nat.succ_le_succ (Nat.zero_le _), by simp [Leg.log], rfl⟩
        · rename_i m hsome
          obtain ⟨target, rfl, hm⟩ := Option.bind_eq_some_iff.mp hsome
          obtain ⟨legs, outcome, hwalked, hlength, rfl, rfl⟩ := ih.mp hrest
          exact ⟨_, _, .moved hvisit hm hwalked, Nat.succ_le_succ hlength, rfl, by simp [Leg.visited]; rfl⟩
    · rintro ⟨legs, outcome, hwalked, hlength, rfl, rfl⟩
      cases hwalked with
      | failed hvisit => exact ⟨_, _, [], by simp [Leg.log], hvisit, rfl, rfl⟩
      | suspended hvisit => exact ⟨_, _, [], by simp [Leg.log], hvisit, rfl, rfl⟩
      | ended hvisit hnone =>
        refine ⟨_, _, [], by simp [Leg.log], hvisit, ?_⟩
        dsimp only
        rw [hnone]
        exact ⟨rfl, rfl⟩
      | moved hvisit hm hrest =>
        refine ⟨_, _, _, Leg.log_cons _ _, hvisit, ?_⟩
        dsimp only
        rw [Option.bind_some, hm]
        refine ih.mpr ⟨_, _, hrest, Nat.le_of_succ_le_succ hlength, rfl, ?_⟩
        simp [Leg.visited]
        rfl

theorem run_yields_iff {resumeFrom : Option String} {x : Except RunError RunReport} :
    (f.run settings limit resumeFrom).Yields l x ↔ f.Ran settings limit resumeFrom l x := by
  unfold run
  dsimp only
  split
  · rename_i hnone
    have hstart : f.start? resumeFrom = none := hnone
    constructor
    · rintro ⟨rfl, rfl⟩
      exact .nowhere hstart
    · rintro (_ | ⟨hsome, _, _, _⟩)
      · exact ⟨rfl, rfl⟩
      · cases hstart.symm.trans hsome
  · rename_i n hsome
    have hstart : f.start? resumeFrom = some n := hsome
    rw [Attempt.yields_bind]
    simp only [Attempt.yields_always, walk_yields_iff]
    constructor
    · rintro (⟨e, ⟨y, -, he⟩, -⟩ | ⟨y, l₁, l₂, rfl, ⟨z, ⟨legs, outcome, hwalked, hlength, rfl, rfl⟩, hy⟩, hrest⟩)
      · cases he
      · cases hy
        obtain ⟨merged, rest, rfl, hrest⟩ := hrest
        cases merged <;> obtain ⟨rfl, rfl⟩ := hrest <;> exact .walked hstart hwalked hlength _
    · rintro (hnone | ⟨hsome, hwalked, hlength, merged⟩)
      · cases hstart.symm.trans hnone
      · cases hstart.symm.trans hsome
        refine .inr ⟨_, _, _, rfl, ⟨_, ⟨_, _, hwalked, hlength, rfl, rfl⟩, rfl⟩, merged, [], rfl, ?_⟩
        cases merged <;> exact ⟨rfl, rfl⟩

def trial (automation : Automation) (depth : Nat) : RunFrame where
  automation := automation
  contact := ⟨1, default, "Ana", "5581999900001", [], none, false, false, none, ⟨1717408800, 0⟩, []⟩
  eventContext := .obj [("contactId", .int 1)]
  connection := ⟨default, default, "main", "1", "2", "key", ⟨1717408800, 0⟩⟩
  depth := depth

end RunFrame
end Outreach
