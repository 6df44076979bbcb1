import Outreach.Proofs.Engine.Termination
import Outreach.Proofs.Engine.Walk
import Outreach.Proofs.Sweep.Log

/-! How a sweep goes, told by what it asks and how that is answered. It looks up what is due and handles one task after
the other; of each it looks up what the task refers to, and runs what it found from the stored node on. -/
namespace Outreach

def lookedUp {α : Type} (what : String) : Except RepositoryError (Option α) → Except String α
  | .ok (some a) => .ok a
  | .ok none => .error (what ++ " not found")
  | .error e => .error e.message

theorem lookedUp_eq_ok {α : Type} {what : String} {found : Except RepositoryError (Option α)} {a : α} :
    lookedUp what found = .ok a ↔ found = .ok (some a) := by
  obtain e | _ | b := found <;> simp [lookedUp]

inductive Ending where
  | lost
  | ended (failure : Option String)

namespace SweepSummary

def note (s : SweepSummary) : Ending → SweepSummary
  | .lost => s.skip
  | .ended failure => s.count failure

/-- Where no task was lost, each of them is counted as processed or as failed. -/
theorem foldl_note {ends : List Ending} (h : Ending.lost ∉ ends) (s : SweepSummary) :
    (ends.foldl note s).skipped = s.skipped ∧
    (ends.foldl note s).processed + (ends.foldl note s).failed = s.processed + s.failed + ends.length := by
  induction ends generalizing s with
  | nil => exact ⟨rfl, rfl⟩
  | cons ending ends ih =>
    obtain ⟨hne, hends⟩ := not_or.mp (mt List.mem_cons.mpr h)
    cases ending with
    | lost => exact absurd rfl hne
    | ended failure =>
      obtain ⟨hskipped, hcounted⟩ := ih hends (s.count failure)
      have hcount := s.count_eq failure
      rw [List.foldl_cons, note, hskipped, hcounted, List.length_cons]
      omega

end SweepSummary

namespace ScheduledTask
variable (settings : EngineSettings) (limit : Nat) (t : ScheduledTask)

def automationNote : String := "automation " ++ t.automationId.text

def contactNote : String := "contact " ++ Text.decimalInt t.contactId

def connectionNote : String := "connection " ++ t.connectionId.text

def frame (automation : Automation) (contact : Contact) (connection : Connection) : RunFrame :=
  ⟨automation, contact, t.context, connection, forwardDepth t.context⟩

/-- A task that was resumed: the first lookup that comes to nothing is the end of it, and otherwise the run goes on from
the stored node with the stored context. -/
inductive Resumed : List Exchange → Except String Unit → Prop where
  | noAutomation {found : Except RepositoryError (Option Automation)} {m : String}
    (missing : lookedUp t.automationNote found = .error m) :
    Resumed [⟨.getAutomation t.automationId, found⟩] (.error m)
  | noContact (automation : Automation) {found : Except RepositoryError (Option Contact)} {m : String}
    (missing : lookedUp t.contactNote found = .error m) :
    Resumed [⟨.getAutomation t.automationId, .ok (some automation)⟩, ⟨.getContact t.contactId, found⟩] (.error m)
  | noConnection (automation : Automation) (contact : Contact) {found : Except RepositoryError (Option Connection)}
    {m : String} (missing : lookedUp t.connectionNote found = .error m) :
    Resumed [⟨.getAutomation t.automationId, .ok (some automation)⟩, ⟨.getContact t.contactId, .ok (some contact)⟩,
      ⟨.getConnection t.connectionId, found⟩] (.error m)
  | ran {automation : Automation} {contact : Contact} {connection : Connection} {l : List Exchange}
    {x : Except RunError RunReport}
    (run : (t.frame automation contact connection).Ran settings limit (some t.resumeFromNodeId) l x) :
    Resumed (⟨.getAutomation t.automationId, .ok (some automation)⟩ :: ⟨.getContact t.contactId, .ok (some contact)⟩ ::
      ⟨.getConnection t.connectionId, .ok (some connection)⟩ :: l) ((x.mapError RunError.message).map fun _ => ())

inductive Handled : List Exchange → Ending → Prop where
  | lost : Handled [⟨.claimTask t.id, .ok false⟩] .lost
  | refused (e : RepositoryError) (recorded : Except RepositoryError Unit) :
    Handled [⟨.claimTask t.id, .error e⟩, ⟨.updateTask t.id .failed (some e.message), recorded⟩]
      (.ended (some e.message))
  | resumed {l : List Exchange} {x : Except String Unit} (resumed : t.Resumed settings limit l x)
    (recorded : Except RepositoryError Unit) :
    Handled (⟨.claimTask t.id, .ok true⟩ :: (l ++
      [⟨.updateTask t.id (statusAfter (SweepPhase.failure? x)) (SweepPhase.failure? x), recorded⟩]))
      (.ended (SweepPhase.failure? x))

inductive HandledAll : List ScheduledTask → List Exchange → List Ending → Prop where
  | nil : HandledAll [] [] []
  | cons {t : ScheduledTask} {rest : List ScheduledTask} {l ls : List Exchange} {ending : Ending} {ends : List Ending}
    (first : t.Handled settings limit l ending) (others : HandledAll rest ls ends) :
    HandledAll (t :: rest) (l ++ ls) (ending :: ends)

variable {settings limit t} {l : List Exchange}

theorem load_yields_iff {α : Type} {what : String} {p : Program (Except RepositoryError (Option α))}
    {e : Except RepositoryError (Option α) → Exchange} (hp : ∀ l y, p.Yields l y ↔ l = [e y]) {x : Except String α} :
    (load what p).Yields l x ↔ ∃ found, l = [e found] ∧ x = lookedUp what found := by
  unfold load
  rw [Attempt.yields_bind_asked hp]
  constructor
  · rintro (⟨fault, rfl, rfl⟩ | ⟨found, rest, rfl, hrest⟩)
    · exact ⟨.error fault, rfl, rfl⟩
    · cases found <;> obtain ⟨rfl, rfl⟩ := hrest
      · exact ⟨.ok none, rfl, rfl⟩
      · exact ⟨.ok (some _), rfl, rfl⟩
  · rintro ⟨found, rfl, rfl⟩
    obtain fault | _ | a := found
    · exact .inl ⟨fault, rfl, rfl⟩
    · exact .inr ⟨none, [], rfl, rfl, rfl⟩
    · exact .inr ⟨some a, [], rfl, rfl, rfl⟩

/-- What looks something up first ends with a note, or goes on with what was found. -/
theorem yields_bind_load {α β : Type} {what : String} {p : Program (Except RepositoryError (Option α))}
    {e : Except RepositoryError (Option α) → Exchange} (hp : ∀ l y, p.Yields l y ↔ l = [e y])
    {k : α → Attempt String β} {y : Except String β} : Attempt.Yields (load what p >>= k) l y ↔
      (∃ found m, l = [e found] ∧ lookedUp what found = .error m ∧ y = .error m) ∨
        ∃ a rest, l = e (.ok (some a)) :: rest ∧ (k a).Yields rest y := by
  simp only [Attempt.yields_bind, load_yields_iff hp]
  constructor
  · rintro (⟨m, ⟨found, rfl, hm⟩, rfl⟩ | ⟨a, l₁, rest, rfl, ⟨found, rfl, ha⟩, hrest⟩)
    · exact .inl ⟨found, m, rfl, hm.symm, rfl⟩
    · obtain rfl := lookedUp_eq_ok.mp ha.symm
      exact .inr ⟨a, rest, rfl, hrest⟩
  · rintro (⟨found, m, rfl, hm, rfl⟩ | ⟨a, rest, rfl, hrest⟩)
    · exact .inl ⟨m, ⟨found, rfl, hm.symm⟩, rfl⟩
    · exact .inr ⟨a, _, rest, rfl, ⟨.ok (some a), rfl, rfl⟩, hrest⟩

theorem resume_yields_iff {x : Except String Unit} :
    (t.resume settings limit).Yields l x ↔ t.Resumed settings limit l x := by
  unfold resume
  rw [yields_bind_load fun _ _ => Program.yields_request]
  constructor
  · rintro (⟨found, m, rfl, hm, rfl⟩ | ⟨automation, l₁, rfl, h₁⟩)
    · exact .noAutomation hm
    obtain ⟨found, m, rfl, hm, rfl⟩ | ⟨contact, l₂, rfl, h₂⟩ :=
      (yields_bind_load fun _ _ => Program.yields_request).mp h₁
    · exact .noContact automation hm
    obtain ⟨found, m, rfl, hm, rfl⟩ | ⟨connection, l₃, rfl, h₃⟩ :=
      (yields_bind_load fun _ _ => Program.yields_request).mp h₂
    · exact .noConnection automation contact hm
    obtain ⟨e, hfailed, rfl⟩ | ⟨report, l₄, l₅, rfl, hdone, rfl, rfl⟩ := Attempt.yields_bind.mp h₃
    · obtain ⟨y, hrun, hy⟩ := Attempt.yields_of.mp hfailed
      cases y <;> cases hy
      exact .ran (RunFrame.run_yields_iff.mp hrun)
    · obtain ⟨y, hrun, hy⟩ := Attempt.yields_of.mp hdone
      cases y <;> cases hy
      rw [List.append_nil]
      exact .ran (RunFrame.run_yields_iff.mp hrun)
  · intro h
    cases h with
    | noAutomation hm => exact .inl ⟨_, _, rfl, hm, rfl⟩
    | noContact automation hm =>
      refine .inr ⟨automation, _, rfl, (yields_bind_load fun _ _ => Program.yields_request).mpr ?_⟩
      exact .inl ⟨_, _, rfl, hm, rfl⟩
    | noConnection automation contact hm =>
      refine .inr ⟨automation, _, rfl, (yields_bind_load fun _ _ => Program.yields_request).mpr ?_⟩
      refine .inr ⟨contact, _, rfl, (yields_bind_load fun _ _ => Program.yields_request).mpr ?_⟩
      exact .inl ⟨_, _, rfl, hm, rfl⟩
    | @ran automation contact connection l x run =>
      refine .inr ⟨automation, _, rfl, (yields_bind_load fun _ _ => Program.yields_request).mpr ?_⟩
      refine .inr ⟨contact, _, rfl, (yields_bind_load fun _ _ => Program.yields_request).mpr ?_⟩
      refine .inr ⟨connection, _, rfl, Attempt.yields_bind.mpr ?_⟩
      have hran := (Attempt.yields_of (f := RunError.message)).mpr ⟨x, RunFrame.run_yields_iff.mpr run, rfl⟩
      cases x with
      | error e => exact .inl ⟨_, hran, rfl⟩
      | ok report => exact .inr ⟨report, l, [], (List.append_nil l).symm, hran, rfl, rfl⟩

theorem finish_yields_iff {status : TaskStatus} {error : Option String} {u : Unit} :
    (t.finish status error).Yields l u ↔ ∃ recorded, l = [⟨.updateTask t.id status error, recorded⟩] := by
  refine Program.yields_bind.trans ?_
  constructor
  · rintro ⟨recorded, l₁, l₂, rfl, hl, rfl, -⟩
    exact ⟨recorded, (List.append_nil l₁).trans (Program.yields_request.mp hl)⟩
  · rintro ⟨recorded, rfl⟩
    exact ⟨recorded, _, [], rfl, Program.yields_request.mpr rfl, rfl, rfl⟩

theorem settle_yields_iff {s s' : SweepSummary} : (t.settle settings limit s).Yields l s' ↔
    ∃ ending, t.Handled settings limit l ending ∧ s' = s.note ending := by
  unfold settle
  refine Program.yields_bind.trans ?_
  constructor
  · rintro ⟨won, l₁, l₂, rfl, hclaim, hrest⟩
    obtain rfl := Program.yields_request.mp hclaim
    obtain e | _ | _ := won
    · obtain ⟨u, l₃, l₄, rfl, hfinish, rfl, rfl⟩ := Program.yields_bind.mp hrest
      obtain ⟨recorded, rfl⟩ := finish_yields_iff.mp hfinish
      exact ⟨_, .refused e recorded, rfl⟩
    · obtain ⟨rfl, rfl⟩ := hrest
      exact ⟨_, .lost, rfl⟩
    · obtain ⟨x, l₃, l₄, rfl, hresume, hlast⟩ := Program.yields_bind.mp hrest
      have hresumed := resume_yields_iff.mp hresume
      obtain m | _ := x <;> obtain ⟨u, l₅, l₆, rfl, hfinish, rfl, rfl⟩ := Program.yields_bind.mp hlast <;>
        obtain ⟨recorded, rfl⟩ := finish_yields_iff.mp hfinish <;> exact ⟨_, .resumed hresumed recorded, rfl⟩
  · rintro ⟨ending, hhandled, rfl⟩
    cases hhandled with
    | lost => exact ⟨.ok false, _, [], rfl, Program.yields_request.mpr rfl, rfl, rfl⟩
    | refused e recorded =>
      refine ⟨_, _, _, rfl, Program.yields_request.mpr rfl, Program.yields_bind.mpr ?_⟩
      exact ⟨(), _, [], rfl, finish_yields_iff.mpr ⟨recorded, rfl⟩, rfl, rfl⟩
    | @resumed l x resumed recorded =>
      refine ⟨_, _, _, rfl, Program.yields_request.mpr rfl, Program.yields_bind.mpr ?_⟩
      refine ⟨x, l, _, rfl, resume_yields_iff.mpr resumed, ?_⟩
      cases x <;> exact Program.yields_bind.mpr ⟨(), _, [], rfl, finish_yields_iff.mpr ⟨recorded, rfl⟩, rfl, rfl⟩

theorem settleAll_yields_iff {due : List ScheduledTask} {s s' : SweepSummary} :
    (settleAll settings limit s due).Yields l s' ↔
      ∃ ends, HandledAll settings limit due l ends ∧ s' = ends.foldl .note s := by
  induction due generalizing l s with
  | nil =>
    constructor
    · rintro ⟨rfl, rfl⟩
      exact ⟨[], .nil, rfl⟩
    · rintro ⟨ends, hall, rfl⟩
      cases hall
      exact ⟨rfl, rfl⟩
  | cons t rest ih =>
    rw [settleAll]
    refine Program.yields_bind.trans ?_
    constructor
    · rintro ⟨s₁, l₁, l₂, rfl, hfirst, hrest⟩
      obtain ⟨ending, hhandled, rfl⟩ := settle_yields_iff.mp hfirst
      obtain ⟨ends, hall, rfl⟩ := ih.mp hrest
      exact ⟨_, .cons hhandled hall, rfl⟩
    · rintro ⟨ends, hall, rfl⟩
      cases hall with
      | cons first others =>
        exact ⟨_, _, _, rfl, settle_yields_iff.mpr ⟨_, first, rfl⟩, ih.mpr ⟨_, others, rfl⟩⟩

end ScheduledTask
end Outreach
