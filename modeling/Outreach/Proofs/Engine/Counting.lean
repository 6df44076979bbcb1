import Outreach.Engine.Management
import Outreach.Proofs.Engine.Contexts
import Outreach.Proofs.Engine.Walk

/-! What is merged into counters. Runs, webhook calls, saves and changes of the status only ever merge counters in
which each attempt has succeeded or failed, and they neither make automations nor take them away. -/
namespace Outreach

structure ExecutionStats.IsSettled (s : ExecutionStats) : Prop where
  ascending : Keyed.Ascending s
  split : ∀ n, (s.counters n).success + (s.counters n).error = (s.counters n).total

theorem ExecutionStats.settled_nil : IsSettled [] := ⟨Keyed.ascending_nil, fun _ => rfl⟩

theorem Leg.settled_count {stats : ExecutionStats} (h : stats.IsSettled) (leg : Leg) : (count stats leg).IsSettled where
  ascending := count_ascending h.ascending leg
  split n := by
    have hone : leg.amount.success + leg.amount.error = leg.amount.total := by unfold amount; split <;> rfl
    have hstats := h.split n
    rw [counters_count]
    split
    · simp only [NodeStats.add]
      omega
    · exact hstats

def Terms.counting : Terms where
  asks
    | .mergeStats _ delta => delta.IsSettled
    | .createAutomation _ | .deleteAutomation _ => False
    | _ => True
  answers _ _ := True

theorem Request.IsActing.counting {r : Request} (h : r.IsActing) : Terms.counting.asks r := by
  cases r <;> first | exact trivial | exact h.elim

theorem Request.IsServing.counting {r : Request} (h : r.IsServing) : Terms.counting.asks r := by
  cases r <;> first | exact trivial | exact h.elim

variable (settings : EngineSettings)

namespace RunFrame
variable {settings} {f : RunFrame}

theorem walk_meets_counting (limit : Nat) (n : Node) (visited : List String) {stats : ExecutionStats}
    (h : stats.IsSettled) : (f.walk settings limit n visited stats).Meets .counting fun y => y.2.1.IsSettled := by
  induction limit generalizing n visited stats with
  | zero => exact trivial
  | succ limit ih =>
    have hvisit : Attempt.Meets .counting (f.MayCome n) (f.visit settings n) :=
      visit_meets_of (fun _ => Request.IsActing.counting) (fun _ _ => trivial) n fun _ _ _ _ => trivial
    rw [walk]
    apply Program.meets_bind hvisit
    intro x _
    have hcount := Leg.settled_count h ⟨n, [], x⟩
    split
    · exact Program.meets_pure hcount
    · exact Program.meets_pure hcount
    · dsimp only
      split
      · exact Program.meets_pure hcount
      · exact ih _ _ hcount

theorem run_meets_counting (limit : Nat) (resumeFrom : Option String) :
    Attempt.Meets .counting (fun _ => True) (f.run settings limit resumeFrom) := by
  unfold run
  dsimp only
  split
  · exact Attempt.meets_pure trivial
  · rename_i start _
    have hwalk : (f.walk settings limit start [] []).Meets .counting fun y => y.2.1.IsSettled :=
      walk_meets_counting limit start [] ExecutionStats.settled_nil
    apply Attempt.meets_bind (Attempt.meets_always hwalk)
    intro y hy
    refine Attempt.meets_bind (P := fun _ => True) (Attempt.meets_of_trivial ?_) fun _ _ => Attempt.meets_pure trivial
    exact Program.meets_request hy fun _ _ => trivial

end RunFrame

theorem fire_meets_counting (limit : Nat) (event : Event) (contactId : Int) (scope : Scope) :
    Attempt.Meets .counting (fun _ => True) (fire settings limit event contactId scope) :=
  fire_meets_of settings limit (fun _ => Request.IsServing.counting) rfl
    (fun _ _ _ => RunFrame.run_meets_counting limit none) scope

theorem Intake.handle_meets_counting (limit : Nat) (webhookId : String) (body : Json) :
    Attempt.Meets .counting (fun _ => True) (handle settings limit webhookId body) :=
  handle_meets_of settings limit (fun _ => Request.IsServing.counting) webhookId
    fun _ _ e _ => fire_meets_counting settings limit e

namespace Management
variable {c : Terms}

theorem update_meets {a : Automation} (h : c.asks (.updateAutomation a)) :
    Attempt.Meets c (fun _ => True) (update a) := by
  unfold update checkGraph
  split
  · exact Attempt.meets_throw
  · exact Attempt.meets_of_trivial (Program.meets_request h fun _ _ => trivial)

theorem get_meets {id : Uuid} (h : c.asks (.getAutomation id)) : Attempt.Meets c (fun _ => True) (get id) := by
  unfold get
  refine Attempt.meets_bind (P := fun _ => True) (Attempt.meets_of_trivial ?_) fun found _ => ?_
  · exact Program.meets_request h fun _ _ => trivial
  · split
    · exact Attempt.meets_pure trivial
    · exact Attempt.meets_throw

theorem setStatus_meets (id : Uuid) (status : AutomationStatus) (hget : c.asks (.getAutomation id))
    (hset : c.asks (.setStatus id status)) : Attempt.Meets c (fun _ => True) (setStatus id status) := by
  have hchange : Attempt.Meets c (fun _ => True) (do
      unless ← stored (.request (.setStatus id status)) do throw (ManagementError.notFound id)) := by
    refine Attempt.meets_bind (P := fun _ => True) (Attempt.meets_of_trivial ?_) fun found _ => ?_
    · exact Program.meets_request hset fun _ _ => trivial
    · split
      · exact Attempt.meets_pure trivial
      · exact Attempt.meets_throw
  unfold setStatus
  dsimp only
  split
  · apply Attempt.meets_bind (get_meets hget)
    intro a _
    split
    · exact Attempt.meets_bind (P := fun _ => True) Attempt.meets_throw fun _ _ => hchange
    · exact hchange
  · exact hchange

end Management
end Outreach
