import Outreach.Proofs.Engine.Continuation

/-! Runs end when every loop of the graph waits. A walk that came to a node again would have gone once around a
cycle, and no walk passes a wait. -/
namespace Outreach

namespace Program
variable {α β : Type} {P : α → Prop}

def Ends (P : α → Prop) : Program α → Prop
  | .done a => P a
  | .ask _ next => ∀ x, (next x).Ends P
  | .endless => False

theorem ends_bind {p : Program α} {f : α → Program β} {Q : β → Prop} (hp : p.Ends P)
    (hf : ∀ a, P a → (f a).Ends Q) : Ends Q (p >>= f) := by
  induction p with
  | done a => exact hf a hp
  | ask r next ih => exact fun x => ih x (hp x)
  | endless => exact hp

/-- A program that ends has some result whatever handles its requests. -/
theorem Ends.run {p : Program α} (hp : p.Ends P) {σ : Type} (h : Handler σ) (s : σ) :
    ∃ a s', p.run h s = some (a, s') ∧ P a := by
  induction p generalizing s with
  | done a => exact ⟨a, s, rfl, hp⟩
  | ask r next ih => exact ih _ (hp _) _
  | endless => exact hp.elim

/-- What is true of every result is true of the one it ends with. -/
theorem Ends.of_yields {p : Program α} {Q : α → Prop} (hp : p.Ends P) (h : ∀ l a, p.Yields l a → Q a) : p.Ends Q := by
  induction p with
  | done a => exact h [] a ⟨rfl, rfl⟩
  | ask r next ih => exact fun x => ih x (hp x) fun l a hl => h (⟨r, x⟩ :: l) a ⟨x, l, rfl, hl⟩
  | endless => exact hp

theorem Ends.result {p : Program α} (hp : p.Ends P) {l : List Exchange} {a : α} (h : p.Yields l a) : P a := by
  induction p generalizing l with
  | done b =>
    obtain ⟨-, rfl⟩ := h
    exact hp
  | ask r next ih =>
    obtain ⟨x, rest, -, hrest⟩ := h
    exact ih x (hp x) hrest
  | endless => exact hp.elim

end Program

namespace Attempt
variable {ε ε' α β : Type}

def Ends (p : Attempt ε α) : Prop := Program.Ends (fun _ => True) p.run

theorem ends_pure {a : α} : Ends (pure a : Attempt ε α) := trivial

theorem ends_bind {p : Attempt ε α} {f : α → Attempt ε β} (hp : Ends p) (hf : ∀ a, Ends (f a)) : Ends (p >>= f) := by
  apply Program.ends_bind hp
  intro x _
  cases x with
  | ok a => exact hf a
  | error e => exact trivial

theorem ends_of {f : ε' → ε} {p : Program (Except ε' α)} (h : p.Ends fun _ => True) : Ends (Attempt.of f p) :=
  Program.ends_bind h fun x _ => by cases x <;> exact trivial

theorem ends_always {p : Program α} (h : p.Ends fun _ => True) : Ends (Attempt.always p : Attempt ε α) :=
  Program.ends_bind h fun _ _ => trivial

end Attempt

theorem Program.ends_request {r : Request} : (Program.request r).Ends fun _ => True := fun _ => trivial

namespace Action
open Attempt
variable (settings : EngineSettings)

theorem sendText_ends (contact : Contact) (connection : Connection) (context : Json) (text : String) :
    Ends (sendText settings contact connection context text) := by
  unfold sendText
  split
  · exact ends_pure
  · exact ends_of Program.ends_request

theorem sendTemplate_ends (contact : Contact) (connection : Connection) (templateId : String) :
    Ends (sendTemplate settings contact connection templateId) := by
  unfold sendTemplate
  split
  · exact ends_pure
  · refine ends_bind (ends_of Program.ends_request) fun templates => ?_
    split
    · exact ends_pure
    · exact ends_of Program.ends_request

theorem sendFlow_ends (contact : Contact) (connection : Connection) (flowId : String) :
    Ends (sendFlow settings contact connection flowId) := by
  unfold sendFlow
  split
  · exact ends_pure
  · exact ends_bind (ends_always Program.ends_request) fun token => ends_of Program.ends_request

theorem changeTag_ends (contactId : Int) (context : Json) (tagName : String) (add : Bool) :
    Ends (changeTag contactId context tagName add) := by
  unfold changeTag
  split
  · exact ends_pure
  · refine ends_bind (ends_of Program.ends_request) fun current => ?_
    split
    · exact ends_pure
    · split
      · exact ends_pure
      · exact ends_of Program.ends_request

theorem moveStage_ends (contact : Contact) (stageId : String) : Ends (moveStage contact stageId) := by
  unfold moveStage
  split
  · exact ends_pure
  · refine ends_bind (ends_of Program.ends_request) fun stages => ?_
    split
    · exact ends_pure
    · refine ends_bind (ends_of Program.ends_request) fun current => ?_
      split
      · exact ends_pure
      · exact ends_of Program.ends_request

theorem forwardTarget_ends (automationId : String) : Ends (forwardTarget automationId) := by
  unfold forwardTarget
  split
  · exact ends_pure
  · split
    · exact ends_pure
    · exact ends_of Program.ends_request

theorem callOut_ends (contactId : Int) (spec : HttpRequestSpec) (context : Json) :
    Ends (callOut settings contactId spec context) := by
  unfold callOut
  split
  · exact ends_pure
  · refine ends_bind (ends_of Program.ends_request) fun reply => ?_
    split
    · exact ends_pure
    · split
      · exact ends_pure
      · dsimp only
        split
        · exact ends_pure
        · exact ends_of Program.ends_request

theorem completed_ends {p : Action.Attempt Unit} (h : Ends p) : Ends (do p; return ActionOutcome.completed) :=
  ends_bind h fun _ => ends_pure

theorem perform_ends (action : Action) (contact : Contact) (context : Json) (connection : Connection) :
    Ends (perform settings action contact context connection) := by
  unfold perform
  cases action with
  | sendMessage kind text templateId flowId =>
    cases kind
    · exact completed_ends (sendText_ends settings contact connection context text)
    · exact completed_ends (sendTemplate_ends settings contact connection templateId)
    · exact completed_ends (sendFlow_ends settings contact connection flowId)
  | wait delay unit =>
    apply ends_bind (ends_always Program.ends_request)
    intro now
    split
    · exact ends_pure
    · exact trivial
  | addTag tagName => exact completed_ends (changeTag_ends contact.id context tagName true)
  | removeTag tagName => exact completed_ends (changeTag_ends contact.id context tagName false)
  | moveCrmStage boardId stageId => exact completed_ends (moveStage_ends contact stageId)
  | optOut => exact completed_ends (ends_of Program.ends_request)
  | forwardAutomation automationId =>
    apply ends_bind (forwardTarget_ends automationId)
    intro target
    split
    · exact ends_pure
    · exact ends_pure
  | httpRequest spec => exact completed_ends (callOut_ends settings contact.id spec context)
  | conditional logic conditions => exact ends_pure
  | randomizer branches => exact ends_pure

end Action

theorem evaluate_ends (contactId : Int) (logic : Logic) (now : WallClock) (conditions : List Condition) :
    Attempt.Ends (evaluate contactId logic now conditions) := by
  induction conditions with
  | nil => exact Attempt.ends_pure
  | cons condition rest ih =>
    refine Attempt.ends_bind (Attempt.ends_of Program.ends_request) fun contact => ?_
    split
    · exact trivial
    · split
      · exact Attempt.ends_pure
      · exact Attempt.ends_pure
      · exact ih

namespace Automation
variable {a : Automation}

def IsCycle (a : Automation) : List String → Prop
  | [] => False
  | u :: rest => (u :: rest).Nodup ∧ (u :: rest ++ [u]).IsChain a.MayLead

def CyclesWait (a : Automation) : Prop :=
  ∀ cycle, a.IsCycle cycle → ∃ id ∈ cycle, ∃ n, a.node? id = some n ∧ n.IsWait

theorem node?_of_mem (hids : (a.nodes.map (·.id)).Nodup) {n : Node} (hn : n ∈ a.nodes) : a.node? n.id = some n := by
  cases hm : a.node? n.id with
  | none => exact absurd (List.find?_eq_none.mp hm n hn) (by simp)
  | some m =>
    have hid : m.id = n.id := node?_id hm
    exact congrArg some (List.inj_on_of_nodup_map hids (List.mem_of_find?_eq_some hm) hn hid)

/-- When ranks fall from node to node except behind waits, every cycle waits. -/
theorem cyclesWait_of_rank (rank : String → Nat) (h : ∀ n, a.node? n.id = some n →
    ∀ v ∈ (Routes.classify a.edges).successors n, n.IsWait ∨ rank v < rank n.id) : a.CyclesWait := by
  intro cycle hcycle
  cases cycle with
  | nil => exact hcycle.elim
  | cons u rest =>
    by_contra hwaits
    have hfall : (u :: rest ++ [u]).IsChain fun u v => rank v < rank u := by
      apply hcycle.2.imp_of_mem_imp
      intro x y hx _ hxy
      obtain ⟨n, hn, hy⟩ := hxy
      obtain rfl := node?_id hn
      refine (h n hn y hy).resolve_left fun hwait => hwaits ⟨n.id, ?_, n, hn, hwait⟩
      obtain hx | hx := List.mem_append.mp hx
      · exact hx
      · exact List.mem_singleton.mp hx ▸ List.mem_cons_self
    have htrans : Trans (fun u v => rank v < rank u) (fun u v => rank v < rank u) (fun u v => rank v < rank u) :=
      ⟨fun h h' => h'.trans h⟩
    have hpairs : (u :: (rest ++ [u])).Pairwise fun u v => rank v < rank u := hfall.pairwise
    exact lt_irrefl _ (List.rel_of_pairwise_cons hpairs (List.mem_append_right _ (List.mem_singleton_self u)))

/-- Where a walk has been before it comes to `n`: at different nodes, none of which waits, each leading to the next. -/
structure Path (a : Automation) (path : List Node) (n : Node) : Prop where
  found : ∀ m ∈ path ++ [n], a.node? m.id = some m
  different : ((path ++ [n]).map (·.id)).Nodup
  chain : ((path ++ [n]).map (·.id)).IsChain a.MayLead
  moving : ∀ m ∈ path, ¬ m.IsWait

theorem Path.single {n : Node} (hn : a.node? n.id = some n) : a.Path [] n where
  found := List.forall_mem_singleton.mpr hn
  different := List.nodup_singleton _
  chain := .singleton _
  moving := List.forall_mem_nil _

theorem Path.length_le {path : List Node} {n : Node} (h : a.Path path n) : path.length + 1 ≤ a.nodes.length := by
  have hnodup : (path ++ [n]).Nodup := .of_map _ h.different
  have hsub : path ++ [n] ⊆ a.nodes := fun m hm => List.mem_of_find?_eq_some (h.found m hm)
  simpa using (hnodup.subperm hsub).length_le

theorem map_id_concat (path : List Node) (n : Node) : (path ++ [n]).map (·.id) = path.map (·.id) ++ [n.id] :=
  List.map_append

theorem Path.visited {path : List Node} {n : Node} (h : a.Path path n) :
    (path.map (·.id) ++ [n.id]).Nodup ∧ (path.map (·.id) ++ [n.id]).length ≤ a.nodes.length := by
  rw [← map_id_concat, List.length_map, List.length_append]
  exact ⟨h.different, h.length_le⟩

theorem Path.not_mem {path : List Node} {n m : Node} (h : a.Path path n) (hcycles : a.CyclesWait) (hn : ¬ n.IsWait)
    (hlead : a.MayLead n.id m.id) : m.id ∉ (path ++ [n]).map (·.id) := by
  intro hmem
  obtain ⟨m', hm', hid⟩ := List.mem_map.mp hmem
  obtain ⟨before, after, heq⟩ := List.append_of_mem hm'
  have hchain : ((m' :: after).map (·.id)).IsChain a.MayLead := by
    have := h.chain
    rw [heq, List.map_append] at this
    exact this.right_of_append
  have hlast : ((m' :: after).map (·.id)).getLast? = some n.id := by
    have := congrArg (fun ns => (ns.map (·.id)).getLast?) heq
    simpa using this.symm
  have hcycle : a.IsCycle ((m' :: after).map (·.id)) := by
    have hdifferent : ((before ++ m' :: after).map (·.id)).Nodup := heq ▸ h.different
    rw [List.map_append] at hdifferent
    refine ⟨hdifferent.of_append_right, hchain.append (.singleton _) fun u hu v hv => ?_⟩
    cases hlast.symm.trans hu
    cases hv
    show a.MayLead n.id m'.id
    rwa [hid]
  obtain ⟨id, hid, w, hw, hwait⟩ := hcycles _ hcycle
  obtain ⟨x, hx, rfl⟩ := List.mem_map.mp hid
  have hxmem : x ∈ path ++ [n] := heq ▸ List.mem_append_right _ hx
  obtain rfl : x = w := Option.some.inj ((h.found x hxmem).symm.trans hw)
  obtain hpath | hlast := List.mem_append.mp hxmem
  · exact h.moving x hpath hwait
  · exact hn (List.mem_singleton.mp hlast ▸ hwait)

theorem Path.append {path : List Node} {n m : Node} (h : a.Path path n) (hcycles : a.CyclesWait) (hn : ¬ n.IsWait)
    (hlead : a.MayLead n.id m.id) (hm : a.node? m.id = some m) : a.Path (path ++ [n]) m where
  found x hx := (List.mem_append.mp hx).elim (h.found x) fun hx => List.mem_singleton.mp hx ▸ hm
  different := by
    rw [List.map_append, List.nodup_append]
    refine ⟨h.different, List.nodup_singleton _, fun x hx y hy hxy => ?_⟩
    obtain rfl : y = m.id := List.mem_singleton.mp hy
    exact h.not_mem hcycles hn hlead (hxy ▸ hx)
  chain := by
    rw [List.map_append]
    apply h.chain.append (.singleton _)
    intro u hu v hv
    cases hv
    obtain rfl : n.id = u := by simpa using hu
    exact hlead
  moving x hx := (List.mem_append.mp hx).elim (h.moving x) fun hx => List.mem_singleton.mp hx ▸ hn

end Automation

namespace RunFrame
open Attempt
variable {settings : EngineSettings} {f : RunFrame}

theorem successor_ends (node : String) (action : Action) : Ends (f.successor settings node action) := by
  unfold successor
  split
  · apply ends_bind (ends_always Program.ends_request)
    intro now
    exact ends_bind (ends_of (evaluate_ends _ _ _ _)) fun outcome => ends_pure
  · split
    · exact ends_pure
    · exact ends_bind (ends_always Program.ends_request) fun i => ends_pure
  · exact ends_pure

theorem visit_ends (n : Node) : Ends (f.visit settings n) := by
  unfold visit
  split
  · exact ends_pure
  · apply ends_bind (Action.perform_ends settings _ _ _ _)
    intro outcome
    split
    · exact ends_bind (successor_ends _ _) fun next => ends_pure
    · split
      · exact ends_pure
      · exact ends_bind (ends_of Program.ends_request) fun id => ends_pure
    · refine ends_bind (ends_always ?_) fun _ => ends_bind (successor_ends _ _) fun next => ends_pure
      unfold forward
      split
      · exact Program.ends_request
      · exact trivial

theorem not_isWait_of_visit {n : Node} {l : List Exchange} {target : String}
    (h : (f.visit settings n).Yields l (.ok (.next (some target)))) : ¬ n.IsWait := by
  rintro ⟨delay, unit, hn⟩
  obtain ⟨now, rest, rfl, hend⟩ := (visit_yields_wait hn).mp h
  cases hend

/-- A walk ends before it has come to more nodes than there are. -/
theorem walk_ends (hcycles : f.automation.CyclesWait) (limit : Nat) {path : List Node} {n : Node}
    (hpath : f.automation.Path path n) (hlimit : f.automation.nodes.length ≤ path.length + limit)
    (stats : ExecutionStats) : (f.walk settings limit n (path.map (·.id)) stats).Ends fun y =>
      y.1.Nodup ∧ y.1.length ≤ f.automation.nodes.length := by
  -- The nodes behind are different ones of the graph as long as none of them waits, so with each step the path grows
  -- by what the limit loses.
  induction limit generalizing path n stats with
  | zero => exact absurd (hpath.length_le.trans hlimit) (Nat.not_succ_le_self _)
  | succ limit ih =>
    rw [walk]
    refine Program.ends_bind ((visit_ends n).of_yields (Q := fun x => ∃ l, (f.visit settings n).Yields l x)
      fun l x hl => ⟨l, hl⟩) fun x hx => ?_
    obtain ⟨l, hl⟩ := hx
    split
    · exact hpath.visited
    · exact hpath.visited
    · rename_i next
      dsimp only
      split
      · exact hpath.visited
      · rename_i m hsome
        obtain ⟨target, rfl, hm⟩ := Option.bind_eq_some_iff.mp hsome
        have hid : m.id = target := Automation.node?_id hm
        have hn : f.automation.node? n.id = some n := hpath.found n (List.mem_append_right _ (List.mem_singleton_self n))
        have hlead : f.automation.MayLead n.id m.id := ⟨n, hn, hid ▸ (visit_mayCome hl rfl).next target rfl⟩
        have hpath' := hpath.append hcycles (not_isWait_of_visit hl) hlead (hid ▸ hm)
        rw [← Automation.map_id_concat]
        refine ih hpath' ?_ _
        rw [List.length_append, List.length_singleton]
        omega

theorem node?_start {start : Node} {resumeFrom : Option String} (hids : (f.automation.nodes.map (·.id)).Nodup)
    (h : f.start? resumeFrom = some start) : f.automation.node? start.id = some start := by
  cases resumeFrom with
  | some id =>
    have hid : start.id = id := Automation.node?_id h
    exact hid.symm ▸ h
  | none => exact Automation.node?_of_mem hids (List.mem_of_find?_eq_some h)

theorem run_ends {limit : Nat} {resumeFrom : Option String} {P : List String × ExecutionStats × RunOutcome → Prop}
    (hwalk : ∀ start, f.start? resumeFrom = some start → (f.walk settings limit start [] []).Ends P) :
    Ends (f.run settings limit resumeFrom) := by
  unfold run
  dsimp only
  split
  · exact ends_pure
  · rename_i start hstart
    refine ends_bind (ends_always ((hwalk start hstart).of_yields fun _ _ _ => trivial)) fun y => ?_
    exact ends_bind (ends_of Program.ends_request) fun _ => ends_pure

/-- With every loop waiting, a run comes to an end after at most as many visits as there are nodes, and no node is
visited twice. -/
theorem run_ends_of_cyclesWait (settings : EngineSettings) (f : RunFrame)
    (hids : (f.automation.nodes.map (·.id)).Nodup) (hcycles : f.automation.CyclesWait) (resumeFrom : Option String) :
    (∀ start, f.start? resumeFrom = some start →
      (f.walk settings f.automation.nodes.length start [] []).Ends fun y =>
        y.1.Nodup ∧ y.1.length ≤ f.automation.nodes.length) ∧
    ∀ limit, f.automation.nodes.length ≤ limit → (f.run settings limit resumeFrom).run.Ends fun x =>
      ∀ report, x = .ok report → report.visited.Nodup ∧ report.visited.length ≤ f.automation.nodes.length := by
  have hwalk (limit : Nat) (hlimit : f.automation.nodes.length ≤ limit) (start : Node)
      (hstart : f.start? resumeFrom = some start) : (f.walk settings limit start [] []).Ends fun y =>
        y.1.Nodup ∧ y.1.length ≤ f.automation.nodes.length :=
    walk_ends hcycles limit (.single (node?_start hids hstart)) ((Nat.zero_add limit).symm ▸ hlimit) []
  refine ⟨hwalk _ le_rfl, fun limit hlimit => ?_⟩
  apply (run_ends (hwalk limit hlimit)).of_yields
  intro l x hx report hreport
  cases run_yields_iff.mp hx with
  | nowhere start =>
    cases hreport
    exact ⟨List.nodup_nil, Nat.zero_le _⟩
  | walked start walked within merged =>
    have hvisited := (hwalk limit hlimit _ start).result (walk_yields_iff.mpr ⟨_, _, walked, within, rfl, rfl⟩)
    cases merged with
    | ok _ =>
      cases hreport
      exact hvisited
    | error e => cases hreport

def everyDay : Automation where
  id := default
  userId := default
  name := "every day"
  status := .active
  nodes := [⟨"t", .trigger (.webhook "hook" false none), none⟩, ⟨"a", .action (.addTag "vip"), none⟩,
    ⟨"w", .action (.wait 1 .days), none⟩]
  edges := [⟨none, "t", "a", none⟩, ⟨none, "a", "w", none⟩, ⟨none, "w", "a", none⟩]
  createdAt := ⟨1717408800, 0⟩
  allowReactivation := false
  blockOnOpenChat := false
  executionStats := []

theorem cyclesWait_everyDay : everyDay.CyclesWait := by
  let rank (id : String) : Nat := if id = "t" then 2 else if id = "a" then 1 else 0
  apply Automation.cyclesWait_of_rank rank
  intro n hn v hv
  have hall : ∀ n ∈ everyDay.nodes, n.id = "w" ∨
      ∀ v ∈ (Routes.classify everyDay.edges).successors n, rank v < rank n.id := by
    decide
  refine (hall n (List.mem_of_find?_eq_some hn)).imp (fun hid => ?_) fun h => h v hv
  rw [hid] at hn
  cases hn
  exact ⟨1, .days, rfl⟩

theorem run_ends_everyDay : everyDay.IsCycle ["a", "w"] ∧ ∀ limit, 3 ≤ limit →
    ((trial everyDay 0).run Surroundings.offline.settings limit (some "a")).run.Ends fun x =>
      ∀ report, x = .ok report → report.visited.Nodup ∧ report.visited.length ≤ 3 := by
  refine ⟨⟨by decide, ?_⟩, ?_⟩
  · exact .cons_cons ⟨_, rfl, by decide⟩ (.cons_cons ⟨_, rfl, by decide⟩ (.singleton _))
  · exact (run_ends_of_cyclesWait Surroundings.offline.settings (trial everyDay 0) (by decide) cyclesWait_everyDay
      (some "a")).2

end RunFrame
end Outreach
