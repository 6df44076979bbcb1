import Outreach.Proofs.Engine.Contexts
import Outreach.Proofs.Tasks.Queue

/-! The row of a run that a webhook has started and that is suspended. Its context holds the body one level down, so
a body at the limit of the reader comes to lie beyond it. -/
namespace Outreach

theorem Event.context_webhook (payload : Json) (contactId : Int) :
    (Event.webhook payload).context contactId = .obj [("contactId", .int contactId), ("webhook", payload)] := by
  have hne : ("webhook" == "contactId") = false := by decide
  have hlt : ¬ "webhook" < "contactId" := by decide
  simp only [context, details, Keyed.ofList, List.foldl, Keyed.put, hne, hlt, Bool.false_eq_true, if_false]

/-- A depth comes to stand between the contact and the body, in the place of one that was there. -/
theorem put_forwardDepth {contact : Json} (c d payload : Json) {ms : List (String × Json)}
    (h : ms = [] ∨ ms = [(forwardDepthKey, c)]) :
    Keyed.put forwardDepthKey d (("contactId", contact) :: ms ++ [("webhook", payload)]) =
      [("contactId", contact), (forwardDepthKey, d), ("webhook", payload)] := by
  have hcontact : (forwardDepthKey == "contactId") = false := by decide
  have hlt : ¬ forwardDepthKey < "contactId" := by decide
  have hwebhook : (forwardDepthKey == "webhook") = false := by decide
  have hgt : forwardDepthKey < "webhook" := by decide
  obtain rfl | rfl := h <;> simp [Keyed.put, hcontact, hlt, hwebhook, hgt]

/-- Between the contact and the body stands how often the run was forwarded, if it was. -/
theorem suspendedContext_webhook (payload : Json) (contactId : Int) (depth : Nat) :
    suspendedContext ((Event.webhook payload).context contactId) depth =
      .obj (("contactId", .int contactId) ::
        (if 0 < depth then [(forwardDepthKey, .nat depth)] else []) ++ [("webhook", payload)]) := by
  rw [Event.context_webhook, suspendedContext]
  by_cases hd : 0 < depth
  · rw [if_pos hd, if_pos hd]
    exact congrArg Json.obj (put_forwardDepth .null _ payload (.inl rfl))
  · rw [if_neg hd, if_neg hd]
    rfl

theorem suspendedContext_twice (payload : Json) (contactId : Int) (d depth : Nat) :
    suspendedContext (suspendedContext ((Event.webhook payload).context contactId) d) depth =
      suspendedContext ((Event.webhook payload).context contactId) depth := by
  rw [suspendedContext_webhook, suspendedContext_webhook, suspendedContext]
  by_cases hdepth : 0 < depth
  · rw [if_pos hdepth, if_pos hdepth]
    refine congrArg Json.obj (put_forwardDepth (.nat d) _ payload ?_)
    split
    · exact .inr rfl
    · exact .inl rfl
  · rw [if_neg hdepth, if_neg hdepth]
    split <;> rfl

theorem forwardDepth_lt (j : Json) : forwardDepth j < 2 ^ 32 := by
  unfold forwardDepth
  split
  · rename_i i _
    split
    · rename_i hi
      have hpow : Nat.pow 2 32 = 2 ^ 32 := rfl
      omega
    · exact Nat.two_pow_pos 32
  · exact Nat.two_pow_pos 32

theorem depth_suspendedContext (payload : Json) (contactId : Int) (depth : Nat) :
    (suspendedContext ((Event.webhook payload).context contactId) depth).depth = payload.depth + 1 := by
  rw [suspendedContext_webhook]
  split <;> simp [Json.depth, Json.membersDepth, Json.int, Json.nat]

theorem mem_numbers_suspendedContext {payload : Json} {contactId : Int} {depth : Nat} {n : Number} :
    n ∈ (suspendedContext ((Event.webhook payload).context contactId) depth).numbers ↔
      n = .int contactId ∨ 0 < depth ∧ n = .int depth ∨ n ∈ payload.numbers := by
  rw [suspendedContext_webhook]
  by_cases hd : 0 < depth <;> simp [Json.numbers, Json.membersNumbers, Json.int, Json.nat, hd]

namespace RunFrame
variable {f : RunFrame} {payload : Json} {contactId : Int}

def queued (f : RunFrame) (id : Int) (now : Instant) (next : String) (t : Instant) : QueuedTask :=
  ⟨id, now, f.taskAt next t, .pending, none⟩

theorem row_queued (id : Int) (now : Instant) (next : String) (t : Instant) :
    (f.queued id now next t).row = TaskRow.ofNew id now (f.taskAt next t) := rfl

/-- A frame of a run that a webhook has started, that such a run was forwarded to, or that goes on with a suspended
one; its ids and depths have the widths of their columns and counters. -/
structure StartedBy (f : RunFrame) (payload : Json) (contactId : Int) : Prop where
  context : ∃ d, f.eventContext = suspendedContext ((Event.webhook payload).context contactId) d
  contact : -(2 ^ 63) ≤ contactId ∧ contactId < 2 ^ 63
  depth : f.depth < 2 ^ 32

theorem StartedBy.context_taskAt (hf : f.StartedBy payload contactId) (next : String) (t : Instant) :
    (f.taskAt next t).context = suspendedContext ((Event.webhook payload).context contactId) f.depth := by
  obtain ⟨d, hd⟩ := hf.context
  rw [taskAt, hd]
  exact suspendedContext_twice payload contactId d f.depth

theorem StartedBy.numbers (hf : f.StartedBy payload contactId) {P : Number → Prop}
    (hint : ∀ i : Int, -(2 ^ 63) ≤ i → i < 2 ^ 64 → P (.int i)) (next : String) (t : Instant) :
    (∀ n ∈ (f.taskAt next t).context.numbers, P n) ↔ ∀ n ∈ payload.numbers, P n := by
  have hcontact := hf.contact
  have hdepth := hf.depth
  rw [hf.context_taskAt]
  simp only [mem_numbers_suspendedContext]
  constructor
  · exact fun h n hn => h n (.inr (.inr hn))
  · rintro h n (rfl | ⟨-, rfl⟩ | hn)
    · exact hint _ (by omega) (by omega)
    · exact hint _ (by omega) (by omega)
    · exact h n hn

theorem StartedBy.depth_le (hf : f.StartedBy payload contactId) (next : String) (t : Instant) :
    (f.taskAt next t).context.depth ≤ Json.depthLimit ↔ payload.depth ≤ 126 := by
  rw [hf.context_taskAt, depth_suspendedContext]
  exact Nat.succ_le_succ_iff

variable {id : Int} {now t : Instant} {next : String}

theorem queued_isProper (hf : f.StartedBy payload contactId) (hpayload : payload.Canonical) (hnow : now.Ordinary)
    (ht : t.Ordinary) : (f.queued id now next t).IsProper where
  storedAt := hnow
  executeAt := ht
  context := by
    rw [queued, hf.context_taskAt]
    exact suspendedContext_canonical (@Event.context_canonical (.webhook payload) hpayload contactId) f.depth

/-- Such a row can be read when its times have plain years, the body leaves a level to spare, and no number in it is
past the floating range. -/
theorem queued_isLegible (hf : f.StartedBy payload contactId) : (f.queued id now next t).IsLegible ↔
    now.IsPlain ∧ t.IsPlain ∧ payload.depth ≤ 126 ∧ ∀ n ∈ payload.numbers, n.reread?.isSome = true := by
  have hnumbers := hf.numbers (P := fun n => n.reread?.isSome = true)
    (fun i hlo hhi => by rw [Number.reread?_int hlo hhi]; rfl) next t
  rw [← hf.depth_le next t, ← hnumbers]
  exact ⟨fun h => ⟨h.storedAt, h.executeAt, h.depth, h.numbers⟩, fun ⟨h₁, h₂, h₃, h₄⟩ => ⟨h₁, h₂, h₃, h₄⟩⟩

/-- It is read as the very task when moreover each number of the body is read back. -/
theorem read_queued (hf : f.StartedBy payload contactId) (hpayload : payload.Canonical) (hnow : now.Ordinary)
    (ht : t.Ordinary) : (TaskRow.ofNew id now (f.taskAt next t)).read = .ok (f.queued id now next t).view ↔
    now.IsPlain ∧ t.IsPlain ∧ payload.depth ≤ 126 ∧ ∀ n ∈ payload.numbers, n.reread? = some n := by
  have hnumbers := hf.numbers (P := fun n => n.reread? = some n)
    (fun i hlo hhi => Number.reread?_int hlo hhi) next t
  rw [← hf.depth_le next t, ← hnumbers, ← row_queued]
  exact QueuedTask.read_row_eq_view (queued_isProper hf hpayload hnow ht)

end RunFrame

def Terms.startedBy (payload : Json) (contactId : Int) : Terms where
  asks
    | .insertTask t => ∃ (f : RunFrame) (next : String) (u : Instant),
        f.StartedBy payload contactId ∧ u.Ordinary ∧ t = f.taskAt next u
    | .spawn r =>
      (RunFrame.mk r.automation r.contact r.eventContext r.connection r.depth).StartedBy payload contactId
    | r => r.IsPlain
  answers
    | .now, now => Instant.Ordinary now
    | _, _ => True

section
variable {settings : EngineSettings} {payload : Json} {contactId : Int}

theorem Terms.startedBy_plain {r : Request} (h : r.IsPlain) : (Terms.startedBy payload contactId).asks r := by
  cases r <;> first | exact h | exact h.elim

theorem RunFrame.permits_startedBy {f : RunFrame} (hf : f.StartedBy payload contactId)
    (hmax : settings.maxForwardDepth < 2 ^ 32) : f.Permits settings (.startedBy payload contactId) where
  plain _ := Terms.startedBy_plain
  insert next t := by
    rintro ⟨now, delay, unit, hnow, ht⟩
    exact ⟨f, next, t, hf, Instant.ordinary_of_addSeconds? hnow ht, rfl⟩
  spawn target hdepth := ⟨hf.context, hf.contact, by simp only [forwardTo]; omega⟩

variable (hmax : settings.maxForwardDepth < 2 ^ 32) (limit : Nat)
include hmax

theorem fire_webhook_meets (hcontact : -(2 ^ 63) ≤ contactId ∧ contactId < 2 ^ 63) (scope : Scope) :
    Attempt.Meets (.startedBy payload contactId) (fun _ => True)
      (fire settings limit (.webhook payload) contactId scope) := by
  refine fire_meets_of settings limit (fun _ hr => Terms.startedBy_plain hr.isPlain) rfl
    (fun automation contact connection => RunFrame.run_meets ?_ limit none) scope
  refine RunFrame.permits_startedBy ⟨⟨0, ?_⟩, hcontact, forwardDepth_lt _⟩ hmax
  rw [suspendedContext_webhook, Event.context_webhook]
  rfl

theorem forwarded_meets {r : ForwardedRun}
    (h : (RunFrame.mk r.automation r.contact r.eventContext r.connection r.depth).StartedBy payload contactId) :
    (r.execute settings limit).Meets (.startedBy payload contactId) fun _ => True :=
  Program.meets_bind (RunFrame.run_meets (RunFrame.permits_startedBy h hmax) limit none) fun _ _ => trivial

/-- And so do those that go on with a task as they have stored it. -/
theorem resume_meets_startedBy {f : RunFrame} (hf : f.StartedBy payload contactId) {next : String} {u : Instant}
    {t : ScheduledTask} (ht : t.context = (f.taskAt next u).context) :
    Attempt.Meets (.startedBy payload contactId) (fun _ => True) (t.resume settings limit) := by
  refine ScheduledTask.resume_meets_of settings limit (fun _ => Terms.startedBy_plain)
    fun automation contact connection => ?_
  exact RunFrame.permits_startedBy ⟨⟨f.depth, by rw [ht, hf.context_taskAt]⟩, hf.contact, forwardDepth_lt _⟩ hmax

end
end Outreach
