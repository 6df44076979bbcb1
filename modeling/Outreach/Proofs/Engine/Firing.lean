import Outreach.Engine.Intake
import Outreach.Proofs.Engine.Walk

/-! Events as they are fired: what is looked up first, and the runs that follow, one after the other. -/
namespace Outreach

namespace Trigger

inductive Passes : Trigger → Event → Prop where
  | contactCreated : Passes .contactCreated .contactCreated
  | webhook (webhookId : String) (listening : Bool) (sample : Option Json) (payload : Json) :
    Passes (.webhook webhookId listening sample) (.webhook payload)
  | tagAdded {value tag : String} (fits : value = "" ∨ value = tag) : Passes (.tagAdded value) (.tagAdded tag)
  | crmStageChanged {boardId stageId : String} {board : Option BoardRef} {stage : StageRef}
    (within : boardId = "" ∨ ∃ b ∈ board, b.id = boardId) (reached : stageId = "" ∨ stage.id = stageId) :
    Passes (.crmStageChanged boardId stageId) (.crmStageChanged board stage)
  | anyMessage (value text : String) : Passes (.contextMessage .any value) (.contextMessage text)
  | containing {value text : String}
    (fits : value = "" ∨ Text.contains (Text.lower text) (Text.lower value) = true) :
    Passes (.contextMessage .contains value) (.contextMessage text)
  | equal {value text : String} (fits : value = "" ∨ Text.lower text = Text.lower value) :
    Passes (.contextMessage .exact value) (.contextMessage text)

theorem accepts_iff {t : Trigger} {e : Event} : t.accepts e = true ↔ t.Passes e := by
  constructor
  · intro h
    cases t with
    | contactCreated => cases e <;> first | exact .contactCreated | cases h
    | tagAdded value =>
      cases e <;> first | exact .tagAdded (by simpa [accepts] using h) | cases h
    | crmStageChanged boardId stageId =>
      cases e with
      | crmStageChanged board stage =>
        have hboth : (boardId = "" ∨ ∃ b ∈ board, b.id = boardId) ∧ (stageId = "" ∨ stage.id = stageId) := by
          simpa [accepts, Option.any_eq_true] using h
        exact .crmStageChanged hboth.1 hboth.2
      | _ => cases h
    | contextMessage kind value =>
      cases e with
      | contextMessage text =>
        cases kind with
        | any => exact .anyMessage value text
        | contains => exact .containing (by simpa [accepts, messageMatches] using h)
        | exact => exact .equal (by simpa [accepts, messageMatches] using h)
      | _ => cases h
    | webhook webhookId listening sample =>
      cases e <;> first | exact .webhook _ _ _ _ | cases h
  · intro h
    cases h with
    | contactCreated | webhook => rfl
    | tagAdded fits => simpa [accepts] using fits
    | crmStageChanged within reached => simpa [accepts, Option.any_eq_true] using ⟨within, reached⟩
    | anyMessage => simp [accepts, messageMatches]
    | containing fits | equal fits => simpa [accepts, messageMatches] using fits

end Trigger

structure Automation.Starts (a : Automation) (e : Event) (c : Contact) : Prop where
  active : a.status = .active
  free : ¬ (a.blockOnOpenChat = true ∧ c.is24hWindowOpen = true)
  passes : ∃ t ∈ a.triggers, t.Passes e

theorem Automation.startsOn_iff {a : Automation} {e : Event} {c : Contact} : a.startsOn e c = true ↔ a.Starts e c := by
  simp only [startsOn, Bool.and_eq_true, beq_iff_eq, Bool.not_eq_true', List.any_eq_true, Trigger.accepts_iff,
    Bool.and_eq_false_iff]
  constructor
  · intro h
    refine ⟨h.1.1, fun hboth => ?_, h.2⟩
    obtain hfree | hfree := h.1.2
    · cases hfree.symm.trans hboth.1
    · cases hfree.symm.trans hboth.2
  · intro h
    refine ⟨⟨h.active, ?_⟩, h.passes⟩
    cases hblock : a.blockOnOpenChat with
    | false => exact .inl rfl
    | true => exact .inr (Bool.eq_false_iff.mpr fun hopen => h.free ⟨hblock, hopen⟩)

instance (a : Automation) (e : Event) (c : Contact) : Decidable (a.Starts e c) :=
  decidable_of_iff _ Automation.startsOn_iff

theorem selectAutomations_eq (automations : List Automation) (e : Event) (c : Contact) :
    selectAutomations automations e c = automations.filter (·.Starts e c) := by
  apply List.filter_congr
  intro a _
  rw [eq_comm, Bool.eq_iff_iff, decide_eq_true_iff, Automation.startsOn_iff]

def Automation.failure? (a : Automation) : Except RunError RunReport → Option (Uuid × String)
  | .ok _ => none
  | .error e => some (a.id, e.message)

section
variable (settings : EngineSettings) (limit : Nat)

inductive RanEach (contact : Contact) (context : Json) (connection : Connection) :
    List Automation → List Exchange → List (Except RunError RunReport) → Prop where
  | nil : RanEach contact context connection [] [] []
  | cons {a : Automation} {rest : List Automation} {l ls : List Exchange} {x : Except RunError RunReport}
    {xs : List (Except RunError RunReport)} (run : (execute settings limit a contact context connection none).Yields l x)
    (others : RanEach contact context connection rest ls xs) :
    RanEach contact context connection (a :: rest) (l ++ ls) (x :: xs)

def DispatchReport.noting (report : DispatchReport) (automations : List Automation)
    (attempts : List (Except RunError RunReport)) : DispatchReport :=
  { report with
    runs := report.runs ++ attempts.filterMap Except.toOption
    failures := report.failures ++ (automations.zipWith Automation.failure? attempts).reduceOption }

namespace DispatchReport
variable (report : DispatchReport) (a : Automation) (rest : List Automation) (attempts : List (Except RunError RunReport))

theorem noting_nil : report.noting [] [] = report := by simp [noting, List.reduceOption]

theorem noting_ok (run : RunReport) : report.noting (a :: rest) (.ok run :: attempts) =
    { report with runs := report.runs ++ [run] }.noting rest attempts := by
  simp [noting, Automation.failure?, List.reduceOption, Except.toOption]

theorem noting_error (e : RunError) : report.noting (a :: rest) (.error e :: attempts) =
    { report with failures := report.failures ++ [(a.id, e.message)] }.noting rest attempts := by
  simp [noting, Automation.failure?, List.reduceOption, List.filterMap_cons, Except.toOption]

end DispatchReport

variable {settings limit} {contact : Contact} {context : Json} {connection : Connection} {l : List Exchange}

theorem runEach_yields_iff {automations : List Automation} {report report' : DispatchReport} :
    (runEach settings limit contact context connection report automations).Yields l report' ↔
      ∃ attempts, RanEach settings limit contact context connection automations l attempts ∧
        report' = report.noting automations attempts := by
  induction automations generalizing l report with
  | nil =>
    constructor
    · intro h
      obtain ⟨rfl, rfl⟩ := h
      exact ⟨[], .nil, report'.noting_nil.symm⟩
    · intro h
      obtain ⟨attempts, hran, rfl⟩ := h
      cases hran
      exact ⟨rfl, report.noting_nil⟩
  | cons a rest ih =>
    rw [runEach]
    refine Program.yields_bind.trans ?_
    constructor
    · intro h
      obtain ⟨x, l₁, l₂, rfl, hrun, hrest⟩ := h
      cases x with
      | ok run =>
        obtain ⟨attempts, hran, rfl⟩ := ih.mp hrest
        exact ⟨_, .cons hrun hran, (report.noting_ok a rest attempts run).symm⟩
      | error e =>
        obtain ⟨attempts, hran, rfl⟩ := ih.mp hrest
        exact ⟨_, .cons hrun hran, (report.noting_error a rest attempts e).symm⟩
    · intro h
      obtain ⟨attempts, hran, rfl⟩ := h
      cases hran with
      | @cons _ _ l₁ l₂ x xs hrun hrest =>
        refine ⟨x, l₁, l₂, rfl, hrun, ?_⟩
        cases x with
        | ok run => exact ih.mpr ⟨xs, hrest, report.noting_ok a rest xs run⟩
        | error e => exact ih.mpr ⟨xs, hrest, report.noting_error a rest xs e⟩

theorem RunReport.id_of_execute {a : Automation} {run : RunReport}
    (h : (execute settings limit a contact context connection none).Yields l (.ok run)) : run.automationId = a.id := by
  have hran := RunFrame.run_yields_iff.mp h
  generalize hx : Except.ok run = x at hran
  cases hran with
  | nowhere start =>
    cases hx
    rfl
  | walked start walked within merged =>
    cases merged with
    | ok _ =>
      cases hx
      rfl
    | error e => cases hx

section
variable {automations : List Automation} {attempts : List (Except RunError RunReport)}
  (h : RanEach settings limit contact context connection automations l attempts)
include h

theorem RanEach.runs_sublist :
    ((attempts.filterMap Except.toOption).map (·.automationId)).Sublist (automations.map (·.id)) := by
  induction h with
  | nil => exact .slnil
  | @cons a rest l ls x xs run others ih =>
    cases x with
    | ok report =>
      rw [List.map_cons, ← RunReport.id_of_execute run]
      exact ih.cons_cons report.automationId
    | error e => exact ih.cons a.id

theorem RanEach.failures_sublist :
    ((automations.zipWith Automation.failure? attempts).reduceOption.map (·.1)).Sublist (automations.map (·.id)) := by
  induction h with
  | nil => exact .slnil
  | @cons a rest l ls x xs run others ih =>
    cases x with
    | ok report => exact ih.cons a.id
    | error e => exact ih.cons_cons a.id

/-- Each automation has a report or a failure, and not both. -/
theorem RanEach.perm : ((attempts.filterMap Except.toOption).map (·.automationId) ++
    (automations.zipWith Automation.failure? attempts).reduceOption.map (·.1)).Perm (automations.map (·.id)) := by
  induction h with
  | nil => exact .nil
  | @cons a rest l ls x xs run others ih =>
    cases x with
    | ok report =>
      rw [List.map_cons, ← RunReport.id_of_execute run]
      exact ih.cons report.automationId
    | error e => exact List.perm_middle.trans (ih.cons a.id)

end
end

inductive Load where
  | skip (reason : SkipReason)
  | go (contact : Contact) (connection : Connection) (automations : List Automation)

inductive Connects (scope : Scope) (contact : Contact) : List Exchange → Connection → Prop where
  | given {connection : Connection} (supplied : scope.connection? = some connection) : Connects scope contact [] connection
  | first {connection : Connection} (lacking : scope.connection? = none) :
    Connects scope contact [⟨.firstConnection contact.userId, .ok (some connection)⟩] connection

inductive Loads (contactId : Int) (scope : Scope) : List Exchange → Except FireError Load → Prop where
  | contactFailed (e : RepositoryError) : Loads contactId scope [⟨.getContact contactId, .error e⟩] (.error (.contact e))
  | contactMissing : Loads contactId scope [⟨.getContact contactId, .ok none⟩] (.ok (.skip .contactMissing))
  | optedOut {contact : Contact} (out : contact.isOptedOut = true) :
    Loads contactId scope [⟨.getContact contactId, .ok (some contact)⟩] (.ok (.skip .optedOut))
  | connectionFailed {contact : Contact} (reachable : contact.isOptedOut = false) (lacking : scope.connection? = none)
    (e : RepositoryError) : Loads contactId scope
      [⟨.getContact contactId, .ok (some contact)⟩, ⟨.firstConnection contact.userId, .error e⟩] (.error (.connection e))
  | noConnection {contact : Contact} (reachable : contact.isOptedOut = false) (lacking : scope.connection? = none) :
    Loads contactId scope
      [⟨.getContact contactId, .ok (some contact)⟩, ⟨.firstConnection contact.userId, .ok none⟩] (.ok (.skip .noConnection))
  | automationsFailed {contact : Contact} {l : List Exchange} {connection : Connection}
    (reachable : contact.isOptedOut = false) (connects : Connects scope contact l connection) (e : RepositoryError) :
    Loads contactId scope (⟨.getContact contactId, .ok (some contact)⟩ :: l ++
      [⟨.listAutomations (scope.audience contact), .error e⟩]) (.error (.automations e))
  | loaded {contact : Contact} {l : List Exchange} {connection : Connection} (reachable : contact.isOptedOut = false)
    (connects : Connects scope contact l connection) (automations : List Automation) :
    Loads contactId scope (⟨.getContact contactId, .ok (some contact)⟩ :: l ++
      [⟨.listAutomations (scope.audience contact), .ok automations⟩]) (.ok (.go contact connection automations))

def Request.IsLookup : Request → Prop
  | .getContact _ | .firstConnection _ | .listAutomations _ => True
  | _ => False

theorem Loads.lookups {contactId : Int} {scope : Scope} {loading : List Exchange} {y : Except FireError Load}
    (h : Loads contactId scope loading y) : ∀ e ∈ loading, e.request.IsLookup := by
  have hconnects {contact : Contact} {l : List Exchange} {connection : Connection}
      (h : Connects scope contact l connection) : ∀ e ∈ l, e.request.IsLookup := by
    cases h with
    | given => exact List.forall_mem_nil _
    | first => exact List.forall_mem_singleton.mpr trivial
  cases h with
  | contactFailed | contactMissing | optedOut => exact List.forall_mem_singleton.mpr trivial
  | connectionFailed | noConnection => exact List.forall_mem_cons.mpr ⟨trivial, List.forall_mem_singleton.mpr trivial⟩
  | automationsFailed reachable connects | loaded reachable connects =>
    refine List.forall_mem_append.mpr ⟨List.forall_mem_cons.mpr ⟨trivial, hconnects connects⟩, ?_⟩
    exact List.forall_mem_singleton.mpr trivial

section
variable (settings : EngineSettings) (limit : Nat)

def fireOver (event : Event) (contactId : Int) (scope : Scope) (contact : Contact) (connection : Connection) :
    Attempt FireError DispatchReport := do
  let automations ← Attempt.of .automations (.request (.listAutomations (scope.audience contact)))
  let matched := selectAutomations automations event contact
  Attempt.always (runEach settings limit contact (event.context contactId) connection
    ⟨matched.map (·.id), [], [], none⟩ matched)

theorem fire_eq (event : Event) (contactId : Int) (scope : Scope) : fire settings limit event contactId scope = (do
    match ← Attempt.of .contact (.request (.getContact contactId)) with
    | none => return .skip .contactMissing
    | some contact =>
      if contact.isOptedOut then
        return .skip .optedOut
      else
        match scope.connection? with
        | some connection => fireOver settings limit event contactId scope contact connection
        | none => do
          match ← Attempt.of .connection (.request (.firstConnection contact.userId)) with
          | none => return .skip .noConnection
          | some connection => fireOver settings limit event contactId scope contact connection) := by
  unfold fire
  congr 1

/-- An event that was fired: it fails or is left at that when the lookups come to nothing, and otherwise the automations
are run that it starts. -/
inductive Fired (event : Event) (contactId : Int) (scope : Scope) :
    List Exchange → Except FireError DispatchReport → Prop where
  | failed {loading : List Exchange} {e : FireError} (loads : Loads contactId scope loading (.error e)) :
    Fired event contactId scope loading (.error e)
  | skipped {loading : List Exchange} {reason : SkipReason} (loads : Loads contactId scope loading (.ok (.skip reason))) :
    Fired event contactId scope loading (.ok (.skip reason))
  | ran {loading rest : List Exchange} {contact : Contact} {connection : Connection} {automations : List Automation}
    {attempts : List (Except RunError RunReport)}
    (loads : Loads contactId scope loading (.ok (.go contact connection automations)))
    (runs : RanEach settings limit contact (event.context contactId) connection
      (selectAutomations automations event contact) rest attempts) :
    Fired event contactId scope (loading ++ rest) (.ok (DispatchReport.noting
      ⟨(selectAutomations automations event contact).map (·.id), [], [], none⟩
      (selectAutomations automations event contact) attempts))

variable {settings limit} {event : Event} {contactId : Int} {scope : Scope} {l : List Exchange}
  {x : Except FireError DispatchReport}

theorem fireOver_yields_iff {contact : Contact} {connection : Connection} :
    (fireOver settings limit event contactId scope contact connection).Yields l x ↔
      (∃ e, l = [⟨.listAutomations (scope.audience contact), .error e⟩] ∧ x = .error (.automations e)) ∨
      ∃ automations rest attempts, l = ⟨.listAutomations (scope.audience contact), .ok automations⟩ :: rest ∧
        RanEach settings limit contact (event.context contactId) connection
          (selectAutomations automations event contact) rest attempts ∧
        x = .ok (DispatchReport.noting ⟨(selectAutomations automations event contact).map (·.id), [], [], none⟩
          (selectAutomations automations event contact) attempts) := by
  unfold fireOver
  rw [Attempt.yields_bind_asked fun _ _ => Program.yields_request]
  simp only [Attempt.yields_always, runEach_yields_iff]
  constructor
  · rintro (hfailed | ⟨automations, rest, hl, report, ⟨attempts, hran, rfl⟩, hx⟩)
    · exact .inl hfailed
    · exact .inr ⟨automations, rest, attempts, hl, hran, hx⟩
  · rintro (hfailed | ⟨automations, rest, attempts, hl, hran, hx⟩)
    · exact .inl hfailed
    · exact .inr ⟨automations, rest, hl, _, ⟨attempts, hran, rfl⟩, hx⟩

theorem fired_of_fireOver {contact : Contact} {connection : Connection} {before : List Exchange}
    (reachable : contact.isOptedOut = false) (connects : Connects scope contact before connection)
    (h : (fireOver settings limit event contactId scope contact connection).Yields l x) :
    Fired settings limit event contactId scope (⟨.getContact contactId, .ok (some contact)⟩ :: before ++ l) x := by
  obtain ⟨e, rfl, rfl⟩ | ⟨automations, rest, attempts, rfl, hran, rfl⟩ := fireOver_yields_iff.mp h
  · exact .failed (.automationsFailed reachable connects e)
  · rw [List.append_cons]
    exact .ran (.loaded reachable connects automations) hran

theorem fire_of_fireOver {contact : Contact} {connection : Connection} {before : List Exchange}
    (reachable : contact.isOptedOut = false) (connects : Connects scope contact before connection)
    (h : (fireOver settings limit event contactId scope contact connection).Yields l x) :
    (fire settings limit event contactId scope).Yields (⟨.getContact contactId, .ok (some contact)⟩ :: before ++ l) x := by
  rw [fire_eq, Attempt.yields_bind_asked fun _ _ => Program.yields_request]
  refine .inr ⟨some contact, before ++ l, rfl, ?_⟩
  simp only [reachable]
  cases connects with
  | given supplied =>
    simp only [supplied]
    exact h
  | first lacking =>
    simp only [lacking]
    exact (Attempt.yields_bind_asked fun _ _ => Program.yields_request).mpr (.inr ⟨some connection, l, rfl, h⟩)

theorem fire_yields_iff :
    (fire settings limit event contactId scope).Yields l x ↔ Fired settings limit event contactId scope l x := by
  constructor
  · intro h
    -- The lookups one after the other, each of which may be the end of it.
    rw [fire_eq, Attempt.yields_bind_asked fun _ _ => Program.yields_request] at h
    obtain ⟨e, rfl, rfl⟩ | ⟨found, rest, rfl, h⟩ := h
    · exact .failed (.contactFailed e)
    cases found with
    | none =>
      obtain ⟨rfl, rfl⟩ := h
      exact .skipped .contactMissing
    | some contact =>
      dsimp only at h
      split at h
      · obtain ⟨rfl, rfl⟩ := h
        exact .skipped (.optedOut ‹_›)
      · rename_i hreachable
        rw [Bool.not_eq_true] at hreachable
        split at h
        · exact fired_of_fireOver hreachable (.given ‹_›) h
        · rename_i hlacking
          rw [Attempt.yields_bind_asked fun _ _ => Program.yields_request] at h
          obtain ⟨e, rfl, rfl⟩ | ⟨first, rest, rfl, h⟩ := h
          · exact .failed (.connectionFailed hreachable hlacking e)
          cases first with
          | none =>
            obtain ⟨rfl, rfl⟩ := h
            exact .skipped (.noConnection hreachable hlacking)
          | some connection => exact fired_of_fireOver hreachable (.first hlacking) h
  · intro h
    cases h with
    | failed loads =>
      cases loads with
      | contactFailed e =>
        rw [fire_eq, Attempt.yields_bind_asked fun _ _ => Program.yields_request]
        exact .inl ⟨e, rfl, rfl⟩
      | connectionFailed reachable lacking e =>
        rw [fire_eq, Attempt.yields_bind_asked fun _ _ => Program.yields_request]
        refine .inr ⟨_, _, rfl, ?_⟩
        simp only [reachable, lacking]
        exact (Attempt.yields_bind_asked fun _ _ => Program.yields_request).mpr (.inl ⟨e, rfl, rfl⟩)
      | automationsFailed reachable connects e =>
        exact fire_of_fireOver reachable connects (fireOver_yields_iff.mpr (.inl ⟨e, rfl, rfl⟩))
    | skipped loads =>
      rw [fire_eq, Attempt.yields_bind_asked fun _ _ => Program.yields_request]
      cases loads with
      | contactMissing => exact .inr ⟨none, [], rfl, rfl, rfl⟩
      | optedOut out =>
        refine .inr ⟨_, [], rfl, ?_⟩
        simp only [out]
        exact ⟨rfl, rfl⟩
      | noConnection reachable lacking =>
        refine .inr ⟨_, _, rfl, ?_⟩
        simp only [reachable, lacking]
        exact (Attempt.yields_bind_asked fun _ _ => Program.yields_request).mpr (.inr ⟨none, [], rfl, rfl, rfl⟩)
    | ran loads runs =>
      cases loads with
      | loaded reachable connects found =>
        rw [← List.append_cons]
        exact fire_of_fireOver reachable connects (fireOver_yields_iff.mpr (.inr ⟨_, _, _, rfl, runs, rfl⟩))

end

def Request.IsFiring : Request → Prop
  | .insertTask _ | .spawn _ | .mergeStats .. => True
  | r => r.IsLookup ∨ r.IsActing

theorem Request.IsLookup.isFiring {r : Request} (h : r.IsLookup) : r.IsFiring := by
  cases r <;> first | exact .inl trivial | exact h.elim

theorem RunFrame.visit_isFiring {settings : EngineSettings} {f : RunFrame} {n : Node} {l : List Exchange}
    {x : Except ActionError Advance} (h : (f.visit settings n).Yields l x) : ∀ e ∈ l, e.request.IsFiring := by
  have hacting : ∀ r : Request, r.IsActing → r.IsFiring := fun r hr => by
    cases r <;> first | exact .inr trivial | exact hr.elim
  have hmeets : Attempt.Meets ⟨Request.IsFiring, fun _ _ => True⟩ (f.MayCome n) (f.visit settings n) :=
    visit_meets_of hacting (fun _ _ => trivial) n fun _ _ _ _ => trivial
  exact (hmeets.of_yields h fun _ _ => trivial).1

section
variable {settings : EngineSettings} {limit : Nat} {l : List Exchange}

theorem RunFrame.Ran.isFiring {f : RunFrame} {resumeFrom : Option String} {x : Except RunError RunReport}
    (h : f.Ran settings limit resumeFrom l x) : ∀ e ∈ l, e.request.IsFiring := by
  cases h with
  | nowhere start => exact List.forall_mem_nil _
  | walked start walked within merged =>
    refine List.forall_mem_append.mpr ⟨fun e he => ?_, List.forall_mem_singleton.mpr trivial⟩
    obtain ⟨leg, hleg, hmem⟩ := List.mem_flatMap.mp he
    exact RunFrame.visit_isFiring (walked.visits leg hleg) e hmem

theorem RanEach.isFiring {contact : Contact} {context : Json} {connection : Connection}
    {automations : List Automation} {attempts : List (Except RunError RunReport)}
    (h : RanEach settings limit contact context connection automations l attempts) : ∀ e ∈ l, e.request.IsFiring := by
  induction h with
  | nil => exact List.forall_mem_nil _
  | cons run others ih => exact List.forall_mem_append.mpr ⟨(RunFrame.run_yields_iff.mp run).isFiring, ih⟩

theorem Fired.isFiring {event : Event} {contactId : Int} {scope : Scope} {x : Except FireError DispatchReport}
    (h : Fired settings limit event contactId scope l x) : ∀ e ∈ l, e.request.IsFiring := by
  cases h with
  | failed loads => exact fun e he => (loads.lookups e he).isFiring
  | skipped loads => exact fun e he => (loads.lookups e he).isFiring
  | ran loads runs =>
    exact List.forall_mem_append.mpr ⟨fun e he => (loads.lookups e he).isFiring, runs.isFiring⟩

end
end Outreach
