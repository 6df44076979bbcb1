import Outreach.Proofs.Engine.Program
import Outreach.Proofs.Engine.Routes
import Outreach.Engine.Run

/-! What a run asks for. Apart from contacts, automations, messages, the clock and chance, it asks only to
store one task, made of its own frame, and to start runs it forwards to. -/
namespace Outreach

def Request.IsPlain : Request → Prop
  | .insertTask _ | .dueTasks _ | .claimTask _ | .updateTask .. | .deleteAutomation _ | .spawn _ => False
  | _ => True

def Request.IsActing : Request → Prop
  | .getAutomation _ | .getContact _ | .updateContact .. | .allStages _ | .now | .pick _ | .freshToken => True
  | .sendText .. | .sendTemplate .. | .sendFlow .. | .listTemplates .. | .sendHttp .. => True
  | _ => False

theorem Request.IsActing.isPlain {r : Request} (h : r.IsActing) : r.IsPlain := by
  cases r <;> first | exact trivial | exact h.elim

def Request.IsOutgoing : Request → Prop
  | .allStages _ | .now | .pick _ | .freshToken => True
  | .sendText .. | .sendTemplate .. | .sendFlow .. | .listTemplates .. | .sendHttp .. => True
  | _ => False

theorem Request.IsOutgoing.isActing {r : Request} (h : r.IsOutgoing) : r.IsActing := by
  cases r <;> first | exact trivial | exact h.elim

variable {c : Terms} (settings : EngineSettings)

def Terms.Patches (c : Terms) (p : ContactPatch) : Prop :=
  p.customFields = [] ∨ ∃ limit call reply mappings body, c.answers (.sendHttp limit call) (.ok reply) ∧
    reply.json? = some body ∧ p = HttpRequestSpec.patchFrom mappings body

/-- Terms under which actions can work for a contact, and may find out about the automations that they forward to. -/
structure Terms.Allows (c : Terms) (contactId : Int) (targets : Uuid → Prop) : Prop where
  outgoing : ∀ r : Request, r.IsOutgoing → c.asks r
  find : c.asks (.getContact contactId)
  update : ∀ p, c.Patches p → c.asks (.updateContact contactId p)
  target : ∀ id, targets id → c.asks (.getAutomation id)

theorem Terms.allows_of_acting (hc : ∀ r : Request, r.IsActing → c.asks r) (contactId : Int) (targets : Uuid → Prop) :
    c.Allows contactId targets where
  outgoing r hr := hc r hr.isActing
  find := hc _ trivial
  update _ _ := hc _ trivial
  target _ _ := hc _ trivial

namespace Action

def Names (action : Action) (id : Uuid) : Prop :=
  ∃ text, action = .forwardAutomation text ∧ Uuid.parse? text = some id

section
variable {contactId : Int} {targets : Uuid → Prop} (h : c.Allows contactId targets)
include h

theorem meets_outgoing {r : Request} (hr : r.IsOutgoing) : (Program.request r).Meets c fun _ => True :=
  Program.meets_request (h.outgoing r hr) fun _ _ => trivial

theorem meets_find : (Program.request (.getContact contactId)).Meets c fun _ => True :=
  Program.meets_request h.find fun _ _ => trivial

theorem meets_update {p : ContactPatch} (hp : c.Patches p) :
    (Program.request (.updateContact contactId p)).Meets c fun _ => True :=
  Program.meets_request (h.update p hp) fun _ _ => trivial

theorem sendText_meets (contact : Contact) (connection : Connection) (context : Json) (text : String) :
    Attempt.Meets c (fun _ => True) (sendText settings contact connection context text) := by
  unfold sendText
  split
  · exact Attempt.meets_pure trivial
  · exact Attempt.meets_of_trivial (meets_outgoing h trivial)

theorem sendTemplate_meets (contact : Contact) (connection : Connection) (templateId : String) :
    Attempt.Meets c (fun _ => True) (sendTemplate settings contact connection templateId) := by
  unfold sendTemplate
  split
  · exact Attempt.meets_pure trivial
  · refine Attempt.meets_bind (Attempt.meets_of_trivial (meets_outgoing h trivial)) fun templates _ => ?_
    split
    · exact Attempt.meets_pure trivial
    · exact Attempt.meets_of_trivial (meets_outgoing h trivial)

theorem sendFlow_meets (contact : Contact) (connection : Connection) (flowId : String) :
    Attempt.Meets c (fun _ => True) (sendFlow settings contact connection flowId) := by
  unfold sendFlow
  split
  · exact Attempt.meets_pure trivial
  · refine Attempt.meets_bind (Attempt.meets_always (meets_outgoing h trivial)) fun token _ => ?_
    exact Attempt.meets_of_trivial (meets_outgoing h trivial)

theorem changeTag_meets (context : Json) (tagName : String) (add : Bool) :
    Attempt.Meets c (fun _ => True) (changeTag contactId context tagName add) := by
  unfold changeTag
  split
  · exact Attempt.meets_pure trivial
  · refine Attempt.meets_bind (Attempt.meets_of_trivial (meets_find h)) fun current _ => ?_
    split
    · exact Attempt.meets_pure trivial
    · split
      · exact Attempt.meets_pure trivial
      · exact Attempt.meets_of_trivial (meets_update h (.inl rfl))

theorem moveStage_meets {contact : Contact} (hcontact : contact.id = contactId) (stageId : String) :
    Attempt.Meets c (fun _ => True) (moveStage contact stageId) := by
  subst hcontact
  unfold moveStage
  split
  · exact Attempt.meets_pure trivial
  · refine Attempt.meets_bind (Attempt.meets_of_trivial (meets_outgoing h trivial)) fun stages _ => ?_
    split
    · exact Attempt.meets_pure trivial
    · refine Attempt.meets_bind (Attempt.meets_of_trivial (meets_find h)) fun current _ => ?_
      split
      · exact Attempt.meets_pure trivial
      · exact Attempt.meets_of_trivial (meets_update h (.inl rfl))

theorem forwardTarget_meets {automationId : String} (hid : ∀ id, Uuid.parse? automationId = some id → targets id) :
    Attempt.Meets c (fun target => ∀ a, target = some a → ∃ id, targets id ∧ c.answers (.getAutomation id) (.ok (some a)))
      (forwardTarget automationId) := by
  have hnone : Attempt.Meets c (fun target : Option Automation => ∀ a, target = some a →
      ∃ id, targets id ∧ c.answers (.getAutomation id) (.ok (some a))) (pure none : Action.Attempt _) :=
    Attempt.meets_pure fun _ ha => by cases ha
  unfold forwardTarget
  split
  · exact hnone
  · split
    · exact hnone
    · rename_i id hparse
      refine Attempt.meets_of (Program.meets_request (h.target id (hid id hparse)) fun x hx found hfound a ha => ?_)
      subst hfound ha
      exact ⟨id, hid id hparse, hx⟩

theorem callOut_meets (spec : HttpRequestSpec) (context : Json) :
    Attempt.Meets c (fun _ => True) (callOut settings contactId spec context) := by
  unfold callOut
  split
  · exact Attempt.meets_pure trivial
  · refine Attempt.meets_bind (P := fun reply => c.answers (.sendHttp settings.outboundTimeoutMs (spec.call context))
      (.ok reply)) (Attempt.meets_of ?_) fun reply hreply => ?_
    · exact Program.meets_request (h.outgoing _ trivial) fun x hx reply hreply => hreply ▸ hx
    · split
      · exact Attempt.meets_pure trivial
      · split
        · exact Attempt.meets_pure trivial
        · rename_i body hbody
          dsimp only
          split
          · exact Attempt.meets_pure trivial
          · exact Attempt.meets_of_trivial (meets_update h (.inr ⟨_, _, reply, _, body, hreply, hbody, rfl⟩))

end
end Action

def Terms.Waits (c : Terms) (t : Instant) : Prop :=
  ∃ (now : Instant) (delay : Nat) (unit : WaitUnit),
    c.answers .now now ∧ now.addSeconds? (delay * unit.seconds : Nat) = some t

namespace Action

variable {P : ActionOutcome → Prop}

theorem completed_meets {p : Action.Attempt Unit} (h : Attempt.Meets c (fun _ => True) p)
    (hcompleted : P .completed) : Attempt.Meets c P (do p; return ActionOutcome.completed) :=
  Attempt.meets_bind h fun _ _ => Attempt.meets_pure hcompleted

/-- Only waits wait, and forwards lead to what was found under a name that they give. -/
theorem perform_meets {contact : Contact} {targets : Uuid → Prop} (h : c.Allows contact.id targets) (action : Action)
    (hnames : ∀ id, action.Names id → targets id) (context : Json) (connection : Connection)
    (hcompleted : P .completed)
    (hforward : ∀ id target, targets id → c.answers (.getAutomation id) (.ok (some target)) → P (.forward target))
    (hwait : ∀ delay unit t, action = .wait delay unit → c.Waits t → P (.wait t)) :
    Attempt.Meets c P (perform settings action contact context connection) := by
  unfold perform
  cases action with
  | sendMessage kind text templateId flowId =>
    cases kind
    · exact completed_meets (sendText_meets settings h contact connection context text) hcompleted
    · exact completed_meets (sendTemplate_meets settings h contact connection templateId) hcompleted
    · exact completed_meets (sendFlow_meets settings h contact connection flowId) hcompleted
  | wait delay unit =>
    refine Attempt.meets_bind (P := fun now => c.answers .now now)
      (Attempt.meets_always (Program.meets_request (h.outgoing _ trivial) fun _ h => h)) fun now hnow => ?_
    split
    · rename_i t ht
      exact Attempt.meets_pure (hwait delay unit t rfl ⟨now, delay, unit, hnow, ht⟩)
    · exact Attempt.meets_throw
  | addTag tagName => exact completed_meets (changeTag_meets h context tagName true) hcompleted
  | removeTag tagName => exact completed_meets (changeTag_meets h context tagName false) hcompleted
  | moveCrmStage boardId stageId => exact completed_meets (moveStage_meets h rfl stageId) hcompleted
  | optOut => exact completed_meets (Attempt.meets_of_trivial (meets_update h (.inl rfl))) hcompleted
  | forwardAutomation automationId =>
    refine Attempt.meets_bind (forwardTarget_meets h fun id hid => hnames id ⟨automationId, rfl, hid⟩)
      fun target htarget => ?_
    split
    · rename_i target
      obtain ⟨id, hid, hfound⟩ := htarget target rfl
      exact Attempt.meets_pure (hforward id target hid hfound)
    · exact Attempt.meets_pure hcompleted
  | httpRequest spec => exact completed_meets (callOut_meets settings h spec context) hcompleted
  | conditional logic conditions => exact Attempt.meets_pure hcompleted
  | randomizer branches => exact Attempt.meets_pure hcompleted

end Action

theorem evaluate_meets {contactId : Int} (hfind : c.asks (.getContact contactId)) (logic : Logic) (now : WallClock)
    (conditions : List Condition) :
    Attempt.Meets c (fun _ => True) (evaluate contactId logic now conditions) := by
  induction conditions with
  | nil => exact Attempt.meets_pure trivial
  | cons condition rest ih =>
    have hone : (Program.request (.getContact contactId)).Meets c fun _ => True :=
      Program.meets_request hfind fun _ _ => trivial
    refine Attempt.meets_bind (Attempt.meets_of_trivial hone) fun contact _ => ?_
    split
    · exact Attempt.meets_throw
    · split
      · exact Attempt.meets_pure trivial
      · exact Attempt.meets_pure trivial
      · exact ih

def Node.IsWait (n : Node) : Prop := ∃ delay unit, n.data = .action (.wait delay unit)

def Node.Names (n : Node) (id : Uuid) : Prop := ∃ action, n.data = .action action ∧ action.Names id

def Automation.Names (a : Automation) (id : Uuid) : Prop := ∃ n ∈ a.nodes, n.Names id

namespace RunFrame
variable (f : RunFrame)

def taskAt (next : String) (t : Instant) : NewTask :=
  { userId := f.contact.userId
    contactId := f.contact.id
    automationId := f.automation.id
    connectionId := f.connection.id
    resumeFromNodeId := next
    executeAt := t
    context := suspendedContext f.eventContext f.depth }

def forwardTo (target : Automation) : ForwardedRun :=
  ⟨target, f.contact, f.eventContext, f.connection, f.depth + 1⟩

structure Needs (c : Terms) : Prop where
  allows : c.Allows f.contact.id f.automation.Names
  insert : ∀ next t, c.Waits t → c.asks (.insertTask (f.taskAt next t))
  spawn : ∀ id target, f.automation.Names id → c.answers (.getAutomation id) (.ok (some target)) →
    f.depth + 1 ≤ settings.maxForwardDepth → c.asks (.spawn (f.forwardTo target))
  merge : ∀ delta, c.asks (.mergeStats f.automation.id delta)

structure Permits (c : Terms) : Prop where
  plain : ∀ r : Request, r.IsPlain → c.asks r
  insert : ∀ next t, c.Waits t → c.asks (.insertTask (f.taskAt next t))
  spawn : ∀ target, f.depth + 1 ≤ settings.maxForwardDepth → c.asks (.spawn (f.forwardTo target))

variable {f} {settings}

theorem Permits.needs (hf : f.Permits settings c) : f.Needs settings c where
  allows := Terms.allows_of_acting (fun r hr => hf.plain r hr.isPlain) _ _
  insert := hf.insert
  spawn _ target _ _ := hf.spawn target
  merge _ := hf.plain _ trivial

structure MayCome (f : RunFrame) (n : Node) (advance : Advance) : Prop where
  next : ∀ target, advance = .next (some target) → target ∈ f.routes.successors n
  suspend : ∀ id target, advance = .suspend id target → n.IsWait

theorem mayCome_next {n : Node} {next : Option String} (h : ∀ target ∈ next, target ∈ f.routes.successors n) :
    f.MayCome n (.next next) where
  next target ht := h target (Advance.next.inj ht)
  suspend id target h := by cases h

theorem mayCome_suspend {n : Node} (h : n.IsWait) (id : Int) (target : String) : f.MayCome n (.suspend id target) where
  next target ht := by cases ht
  suspend id target _ := h

theorem successor_meets {targets : Uuid → Prop} (h : c.Allows f.contact.id targets) {n : Node} {action : Action}
    (hn : n.data = .action action) :
    Attempt.Meets c (fun next => f.MayCome n (.next next)) (f.successor settings n.id action) := by
  unfold successor
  split
  · refine Attempt.meets_bind (Attempt.meets_always (Action.meets_outgoing h trivial)) fun now _ => ?_
    refine Attempt.meets_bind (Attempt.meets_of_trivial ?_) fun outcome _ => Attempt.meets_pure ?_
    · exact Program.meets_mono (evaluate_meets h.find _ _ _) fun _ _ => trivial
    · refine mayCome_next fun target ht => ?_
      rw [Routes.successors, hn]
      cases outcome
      · exact List.mem_append_right _ (Option.mem_toList.mpr ht)
      · exact List.mem_append_left _ (Option.mem_toList.mpr ht)
  · split
    · exact Attempt.meets_pure (mayCome_next fun _ h => by cases h)
    · refine Attempt.meets_bind (Attempt.meets_always (Action.meets_outgoing h trivial)) fun i _ => ?_
      refine Attempt.meets_pure (mayCome_next fun target ht => ?_)
      rw [Routes.successors, hn]
      exact List.mem_of_getElem? ht
  · rename_i hconditional hrandomizer
    refine Attempt.meets_pure (mayCome_next fun target ht => ?_)
    rw [Routes.successors, hn]
    split
    · rename_i h
      exact absurd (NodeData.action.inj h) (hconditional _ _)
    · rename_i h
      exact absurd (NodeData.action.inj h) (hrandomizer _)
    · exact Option.mem_toList.mpr ht

/-- A node acts, it stores a task only where it waits, and forwards only to what it names. -/
theorem visit_meets {targets : Uuid → Prop} (h : c.Allows f.contact.id targets) {n : Node}
    (hnames : ∀ id, n.Names id → targets id)
    (hspawn : ∀ id target, targets id → c.answers (.getAutomation id) (.ok (some target)) →
      f.depth + 1 ≤ settings.maxForwardDepth → c.asks (.spawn (f.forwardTo target)))
    (hinsert : ∀ next t, n.IsWait → c.Waits t → c.asks (.insertTask (f.taskAt next t))) :
    Attempt.Meets c (f.MayCome n) (f.visit settings n) := by
  unfold visit
  split
  · rename_i trigger hn
    refine Attempt.meets_pure (mayCome_next fun target ht => ?_)
    rw [Routes.successors, hn]
    exact Option.mem_toList.mpr ht
  · rename_i action hn
    have hperform := Action.perform_meets (P := fun outcome => (∀ t, outcome = .wait t → n.IsWait ∧ c.Waits t) ∧
        ∀ target, outcome = .forward target → ∃ id, targets id ∧ c.answers (.getAutomation id) (.ok (some target)))
      settings h action (fun id hid => hnames id ⟨action, hn, hid⟩) f.context f.connection
      ⟨fun _ h => (by cases h), fun _ h => by cases h⟩
      (fun id target hid hfound => ⟨fun _ h => (by cases h), fun _ h => by cases h; exact ⟨id, hid, hfound⟩⟩)
      fun delay unit t haction ht => ⟨fun u hu => by cases hu; exact ⟨⟨delay, unit, haction ▸ hn⟩, ht⟩,
        fun _ h => by cases h⟩
    refine Attempt.meets_bind hperform fun outcome houtcome => ?_
    obtain ⟨hwait, hforward⟩ := houtcome
    split
    · exact Attempt.meets_bind (successor_meets h hn) fun _ hnext => Attempt.meets_pure hnext
    · rename_i t
      obtain ⟨hn, ht⟩ := hwait t rfl
      split
      · exact Attempt.meets_pure (mayCome_next fun _ h => by cases h)
      · rename_i next _
        unfold suspend
        refine Attempt.meets_bind (Attempt.meets_of_trivial ?_) fun id _ =>
          Attempt.meets_pure (mayCome_suspend hn id next)
        exact Program.meets_request (hinsert next t hn ht) fun _ _ => trivial
    · rename_i target
      obtain ⟨id, hid, hfound⟩ := hforward target rfl
      refine Attempt.meets_bind (P := fun _ => True) (Attempt.meets_always ?_) fun _ _ => ?_
      · unfold forward
        split
        · rename_i hdepth
          exact Program.meets_request (hspawn id target hid hfound hdepth) fun _ _ => trivial
        · exact Program.meets_pure trivial
      · exact Attempt.meets_bind (successor_meets h hn) fun _ hnext => Attempt.meets_pure hnext

/-- Where acting is allowed altogether, it does not matter what a node names. -/
theorem visit_meets_of (hc : ∀ r : Request, r.IsActing → c.asks r)
    (hspawn : ∀ target, f.depth + 1 ≤ settings.maxForwardDepth → c.asks (.spawn (f.forwardTo target))) (n : Node)
    (hinsert : ∀ next t, n.IsWait → c.Waits t → c.asks (.insertTask (f.taskAt next t))) :
    Attempt.Meets c (f.MayCome n) (f.visit settings n) :=
  visit_meets (Terms.allows_of_acting hc _ fun _ => True) (fun _ _ => trivial)
    (fun _ target _ _ => hspawn target) hinsert

theorem walk_meets (hf : f.Needs settings c) (limit : Nat) {node : Node} (hnode : node ∈ f.automation.nodes)
    (visited : List String) (stats : ExecutionStats) :
    (f.walk settings limit node visited stats).Meets c fun _ => True := by
  induction limit generalizing node visited stats with
  | zero => exact trivial
  | succ limit ih =>
    have hvisit : Attempt.Meets c (f.MayCome node) (f.visit settings node) :=
      visit_meets hf.allows (fun id hid => ⟨node, hnode, hid⟩) hf.spawn fun next t _ ht => hf.insert next t ht
    refine Program.meets_bind hvisit fun result _ => ?_
    split
    · exact Program.meets_pure trivial
    · exact Program.meets_pure trivial
    · split
      · exact Program.meets_pure trivial
      · rename_i hnext
        obtain ⟨target, -, hfound⟩ := Option.bind_eq_some_iff.mp hnext
        exact ih (List.mem_of_find?_eq_some hfound) _ _

theorem run_meets_of (hf : f.Needs settings c) (limit : Nat) (resumeFrom : Option String) :
    Attempt.Meets c (fun _ => True) (f.run settings limit resumeFrom) := by
  unfold run
  dsimp only
  split
  · exact Attempt.meets_pure trivial
  · rename_i start hstart
    have hmem : start ∈ f.automation.nodes := by
      split at hstart <;> exact List.mem_of_find?_eq_some hstart
    refine Attempt.meets_bind (Attempt.meets_always (walk_meets hf limit hmem _ _)) fun result _ => ?_
    refine Attempt.meets_bind (Attempt.meets_of_trivial ?_) fun _ _ => Attempt.meets_pure trivial
    exact Program.meets_request (hf.merge _) fun _ _ => trivial

theorem run_meets (hf : f.Permits settings c) (limit : Nat) (resumeFrom : Option String) :
    Attempt.Meets c (fun _ => True) (f.run settings limit resumeFrom) :=
  run_meets_of hf.needs limit resumeFrom

end RunFrame
end Outreach
