import Outreach.Proofs.Engine.Exchange
import Outreach.Proofs.Engine.Run

/-! What is asked and answered while one node is visited. -/
namespace Outreach

theorem Routes.successors_of_wait {r : Routes} {n : Node} (h : n.IsWait) : r.successors n = (r.next? n.id).toList := by
  obtain ⟨delay, unit, hn⟩ := h
  rw [successors, hn]

def RunFrame.acting (settings : EngineSettings) (f : RunFrame) : Terms where
  asks r := r.IsActing ∨ ∃ target, f.depth + 1 ≤ settings.maxForwardDepth ∧ r = .spawn (f.forwardTo target)
  answers _ _ := True

namespace RunFrame
variable {settings : EngineSettings} {f : RunFrame} {n : Node} {l : List Exchange} {x : Except ActionError Advance}

theorem visit_yields_trigger {t : Trigger} (hn : n.data = .trigger t) :
    (f.visit settings n).Yields l x ↔ l = [] ∧ x = .ok (.next (f.routes.next? n.id)) := by
  rw [visit, hn]
  exact Iff.rfl

/-- Apart from waits, nodes only act, and end with an error or lead on. -/
theorem visit_yields_acting (hn : ¬ n.IsWait) (h : (f.visit settings n).Yields l x) :
    (∀ e ∈ l, (f.acting settings).asks e.request) ∧
      ∀ advance, x = .ok advance → ∃ next, advance = .next next ∧ ∀ target ∈ next, target ∈ f.routes.successors n := by
  have hmeets : Attempt.Meets (f.acting settings) (f.MayCome n) (f.visit settings n) :=
    visit_meets_of (fun _ h => Or.inl h) (fun target hdepth => Or.inr ⟨target, hdepth, rfl⟩) n
      fun _ _ h => absurd h hn
  obtain ⟨hasks, hx⟩ := hmeets.of_yields h fun _ _ => trivial
  refine ⟨hasks, fun advance hadvance => ?_⟩
  obtain ⟨hnext, hsuspend⟩ := hx advance hadvance
  cases advance with
  | next next => exact ⟨next, rfl, fun target ht => hnext target (by rw [Option.mem_def.mp ht])⟩
  | suspend id target => exact absurd (hsuspend id target rfl) hn

theorem visit_mayCome (h : (f.visit settings n).Yields l x) {advance : Advance} (hx : x = .ok advance) :
    f.MayCome n advance := by
  have hmeets : Attempt.Meets ⟨fun _ => True, fun _ _ => True⟩ (f.MayCome n) (f.visit settings n) :=
    visit_meets_of (fun _ _ => trivial) (fun _ _ => trivial) n fun _ _ _ _ => trivial
  exact (hmeets.of_yields h fun _ _ => trivial).2 advance hx

/-- How a wait may end once the clock is read: beyond its range, without a successor, or with a task that is stored
or fails to be. -/
inductive WaitEnd (f : RunFrame) (n : Node) (now : Instant) (delay : Nat) (unit : WaitUnit) :
    List Exchange → Except ActionError Advance → Prop where
  | outOfRange (range : now.addSeconds? (delay * unit.seconds : Nat) = none) :
    WaitEnd f n now delay unit [] (.error (.waitOutOfRange delay unit))
  | last {t : Instant} (range : now.addSeconds? (delay * unit.seconds : Nat) = some t)
    (route : f.routes.next? n.id = none) : WaitEnd f n now delay unit [] (.ok (.next none))
  | stored {t : Instant} {next : String} (range : now.addSeconds? (delay * unit.seconds : Nat) = some t)
    (route : f.routes.next? n.id = some next) (id : Int) :
    WaitEnd f n now delay unit [⟨.insertTask (f.taskAt next t), .ok id⟩] (.ok (.suspend id next))
  | failed {t : Instant} {next : String} (range : now.addSeconds? (delay * unit.seconds : Nat) = some t)
    (route : f.routes.next? n.id = some next) (e : RepositoryError) :
    WaitEnd f n now delay unit [⟨.insertTask (f.taskAt next t), .error e⟩] (.error (.repository e))

theorem suspend_yields {next : String} {t : Instant} : (f.suspend next t).Yields l x ↔
    ∃ y, l = [⟨.insertTask (f.taskAt next t), y⟩] ∧ x = (y.mapError .repository).map fun id => .suspend id next := by
  constructor
  · rintro ⟨y, rest, rfl, h⟩
    cases y <;> obtain ⟨rfl, rfl⟩ := h <;> exact ⟨_, rfl, rfl⟩
  · rintro ⟨y, rfl, rfl⟩
    cases y <;> exact ⟨_, [], rfl, rfl, rfl⟩

def waitUntil (f : RunFrame) (n : Node) (now : Instant) (delay : Nat) (unit : WaitUnit) : Action.Attempt Advance :=
  match now.addSeconds? (delay * unit.seconds : Nat), f.routes.next? n.id with
  | none, _ => throw (.waitOutOfRange delay unit)
  | some _, none => pure (.next none)
  | some t, some next => f.suspend next t

theorem visit_wait {delay : Nat} {unit : WaitUnit} (hn : n.data = .action (.wait delay unit)) :
    f.visit settings n = .ask .now fun now => f.waitUntil n now delay unit := by
  rw [visit, hn]
  refine congrArg (Program.ask _) (funext fun now => ?_)
  simp only [waitUntil, Program.bind, Function.comp_apply, ExceptT.bindCont]
  cases now.addSeconds? (delay * unit.seconds : Nat) with
  | none => rfl
  | some t => cases f.routes.next? n.id <;> rfl

theorem visit_yields_wait {delay : Nat} {unit : WaitUnit} (hn : n.data = .action (.wait delay unit)) :
    (f.visit settings n).Yields l x ↔ ∃ now rest, l = ⟨.now, now⟩ :: rest ∧ f.WaitEnd n now delay unit rest x := by
  have hrest (now : Instant) (rest : List Exchange) :
      (f.waitUntil n now delay unit).Yields rest x ↔ f.WaitEnd n now delay unit rest x := by
    unfold waitUntil
    split
    · rename_i range
      constructor
      · rintro ⟨rfl, rfl⟩
        exact .outOfRange range
      · rintro (_ | ⟨range', _⟩ | ⟨range', _, _⟩ | ⟨range', _, _⟩)
        · exact ⟨rfl, rfl⟩
        all_goals exact absurd (range.symm.trans range') (by simp)
    · rename_i range route
      constructor
      · rintro ⟨rfl, rfl⟩
        exact .last range route
      · rintro (range' | _ | ⟨_, route', _⟩ | ⟨_, route', _⟩)
        · exact absurd (range.symm.trans range') (by simp)
        · exact ⟨rfl, rfl⟩
        all_goals exact absurd (route.symm.trans route') (by simp)
    · rename_i t next range route
      rw [suspend_yields]
      constructor
      · rintro ⟨y, rfl, rfl⟩
        cases y with
        | error e => exact .failed range route e
        | ok id => exact .stored range route id
      · rintro (range' | ⟨_, route'⟩ | ⟨range', route', id⟩ | ⟨range', route', e⟩)
        · exact absurd (range.symm.trans range') (by simp)
        · exact absurd (route.symm.trans route') (by simp)
        · cases range.symm.trans range'
          cases route.symm.trans route'
          exact ⟨.ok id, rfl, rfl⟩
        · cases range.symm.trans range'
          cases route.symm.trans route'
          exact ⟨.error e, rfl, rfl⟩
  rw [visit_wait hn]
  simp only [← hrest]
  exact Iff.rfl

end RunFrame
end Outreach
