import Outreach.Proofs.Engine.Contexts
import Outreach.Proofs.Service.Site

/-! The depths of runs. A run keeps its depth while it is under way, its context tells it while it is suspended, and
only a forward adds to it. -/
namespace Outreach

structure Json.IsContext (j : Json) : Prop where
  canonical : j.Canonical
  object : ∃ ms, j = .obj ms

structure Json.TellsDepth (j : Json) (d : Nat) : Prop extends j.IsContext where
  told : j.get? forwardDepthKey = if 0 < d then some (.nat d) else none

theorem Json.TellsDepth.forwardDepth_eq {j : Json} {d : Nat} (h : j.TellsDepth d) (hd : d < 2 ^ 32) :
    forwardDepth j = d :=
  forwardDepth_of_get? h.told hd

theorem Json.IsContext.tellsDepth {j : Json} (h : j.IsContext) (d : Nat) : (suspendedContext j d).TellsDepth d := by
  have hcanonical := suspendedContext_canonical h.canonical d
  obtain ⟨ms, rfl⟩ := h.object
  exact ⟨⟨hcanonical, _, rfl⟩, get?_suspendedContext ms d⟩

/-- What is read back of a context tells the depth that it tells. -/
theorem Json.TellsDepth.reading {j v : Json} {d : Nat} (h : j.TellsDepth d) (hd : d < 2 ^ 32)
    (hv : Decode.ofText Decode.json j.text = .ok v) : v.TellsDepth d := by
  have hcanonical := Json.ofText_canonical hv
  have htold := h.told
  rw [Json.ofText_text h.canonical] at hv
  obtain ⟨ms, rfl⟩ := h.object
  have hreread : Json.reread? (.obj ms) = some v := by
    unfold Json.reading? at hv
    split at hv
    · rename_i hread
      cases hv
      exact (Option.ite_none_right_eq_some.mp hread).2
    · cases hv
  obtain ⟨vs, hvs, rfl⟩ := Option.map_eq_some_iff.mp hreread
  refine ⟨⟨hcanonical, vs, rfl⟩, ?_⟩
  rw [Json.get?, Json.get?_rereadMembers? hvs]
  rw [Json.get?] at htold
  rw [htold]
  split
  · have hint : Number.reread? (.int d) = some (.int d) := Number.reread?_int (by omega) (by omega)
    rw [Option.bind_some, Json.nat, Json.reread?, hint]
    rfl
  · rfl

theorem Event.details_not_forwardDepth (e : Event) : ∀ m ∈ e.details, m.1 ≠ forwardDepthKey := by
  cases e with
  | crmStageChanged board stage => cases board <;> simp [details, forwardDepthKey]
  | _ => simp [details, forwardDepthKey]

theorem Event.context_tellsDepth {e : Event} (h : e.IsOrdered) (contactId : Int) :
    (e.context contactId).TellsDepth 0 := by
  refine ⟨⟨e.context_canonical h contactId, _, rfl⟩, ?_⟩
  have hnone : ∀ m ∈ Keyed.ofList (("contactId", .int contactId) :: e.details), ¬ (m.1 == forwardDepthKey) = true := by
    intro m hm heq
    obtain rfl | hm := List.mem_cons.mp (Keyed.mem_ofList hm)
    · cases heq
    · exact e.details_not_forwardDepth m hm (beq_iff_eq.mp heq)
  rw [context, Json.get?, Keyed.get?, List.find?_eq_none.mpr hnone]
  rfl

/-- What runs of the depth `d` may ask for where `m` is the greatest depth: to store contexts that tell the depth, and
to forward to the next one. -/
def Terms.atDepth (m d : Nat) : Terms where
  asks
    | .insertTask t => t.context.TellsDepth d
    | .spawn run => run.depth = d + 1 ∧ run.depth ≤ m ∧ run.eventContext.IsContext
    | _ => True
  answers _ _ := True

section
variable {settings : EngineSettings} {d : Nat}

theorem Terms.atDepth_plain {m : Nat} {r : Request} (h : r.IsPlain) : (Terms.atDepth m d).asks r := by
  cases r <;> first | exact trivial | exact h.elim

theorem RunFrame.permits_atDepth (settings : EngineSettings) {f : RunFrame} (h : f.eventContext.IsContext) :
    f.Permits settings (.atDepth settings.maxForwardDepth f.depth) where
  plain _ := Terms.atDepth_plain
  insert _ _ _ := h.tellsDepth f.depth
  spawn _ hdepth := ⟨rfl, hdepth, h⟩

variable (settings) (limit : Nat)

theorem fire_meets_atDepth {event : Event} (h : event.IsOrdered) (contactId : Int) (scope : Scope) :
    Attempt.Meets (.atDepth settings.maxForwardDepth 0) (fun _ => True)
      (fire settings limit event contactId scope) := by
  have htells := event.context_tellsDepth h contactId
  refine fire_meets_of settings limit (fun _ hr => Terms.atDepth_plain hr.isPlain) rfl
    (fun automation contact connection => RunFrame.run_meets ?_ limit none) scope
  have hpermits := RunFrame.permits_atDepth settings
    (f := ⟨automation, contact, event.context contactId, connection, forwardDepth (event.context contactId)⟩)
    htells.toIsContext
  rwa [htells.forwardDepth_eq (Nat.two_pow_pos 32)] at hpermits ⊢

theorem ForwardedRun.execute_meets_atDepth {r : ForwardedRun} (h : r.eventContext.IsContext) :
    (r.execute settings limit).Meets (.atDepth settings.maxForwardDepth r.depth) fun _ => True := by
  have hpermits := RunFrame.permits_atDepth settings
    (f := ⟨r.automation, r.contact, r.eventContext, r.connection, r.depth⟩) h
  exact Program.meets_bind (RunFrame.run_meets hpermits limit none) fun _ _ => trivial

theorem ScheduledTask.resume_meets_atDepth {t : ScheduledTask} (h : t.context.TellsDepth d) (hd : d < 2 ^ 32) :
    Attempt.Meets (.atDepth settings.maxForwardDepth d) (fun _ => True) (t.resume settings limit) := by
  refine ScheduledTask.resume_meets_of settings limit (fun _ => Terms.atDepth_plain)
    fun automation contact connection => ?_
  have hpermits := RunFrame.permits_atDepth settings
    (f := ⟨automation, contact, t.context, connection, forwardDepth t.context⟩) h.toIsContext
  rwa [h.forwardDepth_eq hd] at hpermits ⊢

end

def TaskRow.TellsDepth (row : TaskRow) (d : Nat) : Prop := ∃ j : Json, row.context = j.text ∧ j.TellsDepth d

theorem TaskRow.TellsDepth.under {row : TaskRow} {d : Nat} (h : row.TellsDepth d) (r : Request) :
    (row.under r).TellsDepth d := by
  have hcontext : (row.under r).context = row.context := by
    unfold TaskRow.under
    split
    · split <;> rfl
    · split <;> rfl
    · rfl
  rwa [TaskRow.TellsDepth, hcontext]

theorem TaskRow.TellsDepth.read {row : TaskRow} {d : Nat} (h : row.TellsDepth d) (hd : d < 2 ^ 32) {t : ScheduledTask}
    (ht : row.read = .ok t) : t.context.TellsDepth d := by
  obtain ⟨j, hcontext, hj⟩ := h
  exact hj.reading hd (hcontext ▸ row.read_context ht)

end Outreach
