import Outreach.Proofs.Engine.Firing

/-! What a webhook request asks and how it is answered: each way in which it may end has its exchanges. -/
namespace Outreach

def Request.IsIntake : Request → Prop
  | .findContact .. | .listBoards _ | .createContact _ => True
  | r => r.IsFiring

theorem Request.IsFiring.isIntake {r : Request} (h : r.IsFiring) : r.IsIntake := by
  cases r <;> first | exact trivial | exact h

namespace Intake
open Program

variable {settings : EngineSettings} {limit : Nat} {webhookId : String} {body : Json} {owner : Uuid} {phone : String}
  {l : List Exchange}

section
variable (settings limit)

inductive FiredEach (contactId : Int) (scope : Scope) : List Event → List Exchange → List DispatchReport → Prop where
  | nil : FiredEach contactId scope [] [] []
  | cons {e : Event} {rest : List Event} {l ls : List Exchange} {report : DispatchReport} {reports : List DispatchReport}
    (fired : Fired settings limit e contactId scope l (.ok report))
    (others : FiredEach contactId scope rest ls reports) :
    FiredEach contactId scope (e :: rest) (l ++ ls) (report :: reports)

inductive StopsAt (contactId : Int) (scope : Scope) : List Event → List Exchange → FireError → Prop where
  | here {e : Event} (rest : List Event) {l : List Exchange} {error : FireError}
    (fails : Fired settings limit e contactId scope l (.error error)) : StopsAt contactId scope (e :: rest) l error
  | later {e : Event} {rest : List Event} {l ls : List Exchange} {report : DispatchReport} {error : FireError}
    (fired : Fired settings limit e contactId scope l (.ok report)) (stops : StopsAt contactId scope rest ls error) :
    StopsAt contactId scope (e :: rest) (l ++ ls) error

end

theorem FiredEach.length {contactId : Int} {scope : Scope} {events : List Event} {reports : List DispatchReport}
    (h : FiredEach settings limit contactId scope events l reports) : reports.length = events.length := by
  induction h with
  | nil => rfl
  | cons fired others ih => exact congrArg (· + 1) ih

theorem FiredEach.isFiring {contactId : Int} {scope : Scope} {events : List Event} {reports : List DispatchReport}
    (h : FiredEach settings limit contactId scope events l reports) : ∀ e ∈ l, e.request.IsFiring := by
  induction h with
  | nil => exact List.forall_mem_nil _
  | cons fired others ih => exact List.forall_mem_append.mpr ⟨fired.isFiring, ih⟩

theorem StopsAt.isFiring {contactId : Int} {scope : Scope} {events : List Event} {e : FireError}
    (h : StopsAt settings limit contactId scope events l e) : ∀ e ∈ l, e.request.IsFiring := by
  induction h with
  | here rest fails => exact fails.isFiring
  | later fired stops ih => exact List.forall_mem_append.mpr ⟨fired.isFiring, ih⟩

theorem fireEach_yields_iff {contactId : Int} {scope : Scope} {reports : List DispatchReport} {events : List Event}
    {x : Except IntakeError (List DispatchReport)} :
    (fireEach settings limit contactId scope reports events).Yields l x ↔
      (∃ new, FiredEach settings limit contactId scope events l new ∧ x = .ok (reports ++ new)) ∨
      ∃ error, StopsAt settings limit contactId scope events l error ∧ x = .error (.fire error) := by
  -- The reports of the events before are carried along, so the induction is for any of them.
  induction events generalizing l reports with
  | nil =>
    constructor
    · intro h
      obtain ⟨rfl, rfl⟩ := h
      exact .inl ⟨[], .nil, by rw [List.append_nil]⟩
    · intro h
      obtain ⟨new, hfired, rfl⟩ | ⟨error, hstops, -⟩ := h
      · cases hfired
        exact ⟨rfl, by rw [List.append_nil]⟩
      · cases hstops
  | cons e rest ih =>
    rw [fireEach, Attempt.yields_bind]
    constructor
    · intro h
      obtain ⟨error, hfire, rfl⟩ | ⟨report, l₁, l₂, rfl, hfire, hrest⟩ := h
      · obtain ⟨y, hy, herror⟩ := Attempt.yields_of.mp hfire
        cases y <;> cases herror
        exact .inr ⟨_, .here rest (fire_yields_iff.mp hy), rfl⟩
      · obtain ⟨y, hy, hreport⟩ := Attempt.yields_of.mp hfire
        cases y <;> cases hreport
        have hfired := fire_yields_iff.mp hy
        obtain ⟨new, hnew, rfl⟩ | ⟨error, hstops, rfl⟩ := ih.mp hrest
        · exact .inl ⟨report :: new, .cons hfired hnew, by rw [List.append_assoc, List.singleton_append]⟩
        · exact .inr ⟨error, .later hfired hstops, rfl⟩
    · intro h
      obtain ⟨new, hfired, rfl⟩ | ⟨error, hstops, rfl⟩ := h
      · cases hfired with
        | @cons _ _ l₁ l₂ report new hfire hrest =>
          refine .inr ⟨report, l₁, l₂, rfl, Attempt.yields_of.mpr ⟨_, fire_yields_iff.mpr hfire, rfl⟩, ?_⟩
          exact ih.mpr (.inl ⟨new, hrest, by rw [List.append_assoc, List.singleton_append]⟩)
      · cases hstops with
        | here _ hfails => exact .inl ⟨_, Attempt.yields_of.mpr ⟨_, fire_yields_iff.mpr hfails, rfl⟩, rfl⟩
        | @later _ _ l₁ l₂ report _ hfire hstops =>
          refine .inr ⟨report, l₁, l₂, rfl, Attempt.yields_of.mpr ⟨_, fire_yields_iff.mpr hfire, rfl⟩, ?_⟩
          exact ih.mpr (.inr ⟨error, hstops, rfl⟩)

inductive Finds (owner : Uuid) (phone : String) (body : Json) :
    List Exchange → Except IntakeError (Contact × Bool) → Prop where
  | lookupFailed (e : RepositoryError) :
    Finds owner phone body [⟨.findContact owner phone, .error e⟩] (.error (.repository e))
  | known (contact : Contact) :
    Finds owner phone body [⟨.findContact owner phone, .ok (some contact)⟩] (.ok (contact, false))
  | boardsFailed (e : RepositoryError) :
    Finds owner phone body [⟨.findContact owner phone, .ok none⟩, ⟨.listBoards owner, .error e⟩] (.error (.repository e))
  | notMade (boards : List Board) (e : RepositoryError) :
    Finds owner phone body [⟨.findContact owner phone, .ok none⟩, ⟨.listBoards owner, .ok boards⟩,
      ⟨.createContact (newContact owner phone body boards), .error e⟩] (.error (.repository e))
  | made (boards : List Board) (contact : Contact) :
    Finds owner phone body [⟨.findContact owner phone, .ok none⟩, ⟨.listBoards owner, .ok boards⟩,
      ⟨.createContact (newContact owner phone body boards), .ok contact⟩] (.ok (contact, true))

theorem contactFor_yields_iff {x : Except IntakeError (Contact × Bool)} :
    (contactFor owner phone body).Yields l x ↔ Finds owner phone body l x := by
  unfold contactFor stored
  rw [Attempt.yields_bind_asked fun _ _ => Program.yields_request]
  constructor
  · intro h
    obtain ⟨e, rfl, rfl⟩ | ⟨found, rest, rfl, h⟩ := h
    · exact .lookupFailed e
    cases found with
    | some contact =>
      obtain ⟨rfl, rfl⟩ := h
      exact .known contact
    | none =>
      dsimp only at h
      rw [Attempt.yields_bind_asked fun _ _ => Program.yields_request] at h
      obtain ⟨e, rfl, rfl⟩ | ⟨boards, rest, rfl, h⟩ := h
      · exact .boardsFailed e
      rw [Attempt.yields_bind_asked fun _ _ => Program.yields_request] at h
      obtain ⟨e, rfl, rfl⟩ | ⟨contact, rest, rfl, rfl, rfl⟩ := h
      · exact .notMade boards e
      · exact .made boards contact
  · intro h
    cases h with
    | lookupFailed e => exact .inl ⟨e, rfl, rfl⟩
    | known contact => exact .inr ⟨some contact, [], rfl, rfl, rfl⟩
    | boardsFailed e =>
      refine .inr ⟨none, _, rfl, ?_⟩
      exact (Attempt.yields_bind_asked fun _ _ => Program.yields_request).mpr (.inl ⟨e, rfl, rfl⟩)
    | notMade boards e =>
      refine .inr ⟨none, _, rfl, (Attempt.yields_bind_asked fun _ _ => Program.yields_request).mpr ?_⟩
      refine .inr ⟨boards, _, rfl, (Attempt.yields_bind_asked fun _ _ => Program.yields_request).mpr ?_⟩
      exact .inl ⟨e, rfl, rfl⟩
    | made boards contact =>
      refine .inr ⟨none, _, rfl, (Attempt.yields_bind_asked fun _ _ => Program.yields_request).mpr ?_⟩
      refine .inr ⟨boards, _, rfl, (Attempt.yields_bind_asked fun _ _ => Program.yields_request).mpr ?_⟩
      exact .inr ⟨contact, [], rfl, rfl, rfl⟩

theorem Finds.isIntake {x : Except IntakeError (Contact × Bool)} (h : Finds owner phone body l x) :
    ∀ e ∈ l, e.request.IsIntake := by
  cases h with
  | lookupFailed | known => exact List.forall_mem_singleton.mpr trivial
  | boardsFailed => exact List.forall_mem_cons.mpr ⟨trivial, List.forall_mem_singleton.mpr trivial⟩
  | notMade | made =>
    refine List.forall_mem_cons.mpr ⟨trivial, List.forall_mem_cons.mpr ⟨trivial, ?_⟩⟩
    exact List.forall_mem_singleton.mpr trivial

section
variable (settings limit)

def serve (owner : Uuid) (phone : String) (body : Json) : Intake.Attempt IntakeOutcome := do
  let (contact, created) ← contactFor owner phone body
  match ← stored (.request (.firstConnection owner)) with
  | none => throw (.noConnection owner)
  | some connection =>
    let reports ← fireEach settings limit contact.id (.user owner (some connection)) [] (events body contact created)
    return .dispatched contact.id created reports

inductive Served (owner : Uuid) (phone : String) (body : Json) :
    List Exchange → Except IntakeError IntakeOutcome → Prop where
  | unfound {l : List Exchange} {e : IntakeError} (finds : Finds owner phone body l (.error e)) :
    Served owner phone body l (.error e)
  | connectionFailed {l : List Exchange} {contact : Contact} {created : Bool}
    (finds : Finds owner phone body l (.ok (contact, created))) (e : RepositoryError) :
    Served owner phone body (l ++ [⟨.firstConnection owner, .error e⟩]) (.error (.repository e))
  | unconnected {l : List Exchange} {contact : Contact} {created : Bool}
    (finds : Finds owner phone body l (.ok (contact, created))) :
    Served owner phone body (l ++ [⟨.firstConnection owner, .ok none⟩]) (.error (.noConnection owner))
  | stopped {l ls : List Exchange} {contact : Contact} {created : Bool} {connection : Connection} {e : FireError}
    (finds : Finds owner phone body l (.ok (contact, created)))
    (stops : StopsAt settings limit contact.id (.user owner (some connection)) (events body contact created) ls e) :
    Served owner phone body (l ++ ⟨.firstConnection owner, .ok (some connection)⟩ :: ls) (.error (.fire e))
  | dispatched {l ls : List Exchange} {contact : Contact} {created : Bool} {connection : Connection}
    {reports : List DispatchReport} (finds : Finds owner phone body l (.ok (contact, created)))
    (fired : FiredEach settings limit contact.id (.user owner (some connection)) (events body contact created) ls reports) :
    Served owner phone body (l ++ ⟨.firstConnection owner, .ok (some connection)⟩ :: ls)
      (.ok (.dispatched contact.id created reports))

def receiver? (webhookId : String) (automations : List Automation) : Option Automation :=
  automations.find? fun a => a.status == .active && (a.listensOn? webhookId).isSome

theorem handle_eq (webhookId : String) (body : Json) : handle settings limit webhookId body = (do
    let automations ← stored (.request (.listAutomations .all))
    match receiver? webhookId automations with
    | none => throw (.unknownWebhook webhookId)
    | some a =>
      if a.listensOn? webhookId == some true then do
        stored (.request (.updateAutomation (a.captureSample webhookId body)))
        return .sampleCaptured a.id
      else
        match phone? body with
        | none => throw .missingPhone
        | some phone => serve settings limit a.userId phone body) := by
  unfold handle receiver?
  rfl

/-- A whole request: the webhook may be nobody's, it may listen, and the phone may be missing. -/
inductive Handled (webhookId : String) (body : Json) : List Exchange → Except IntakeError IntakeOutcome → Prop where
  | unlisted (e : RepositoryError) :
    Handled webhookId body [⟨.listAutomations .all, .error e⟩] (.error (.repository e))
  | unknown {automations : List Automation} (absent : receiver? webhookId automations = none) :
    Handled webhookId body [⟨.listAutomations .all, .ok automations⟩] (.error (.unknownWebhook webhookId))
  | captured {automations : List Automation} {a : Automation} (found : receiver? webhookId automations = some a)
    (listening : a.listensOn? webhookId = some true) (saved : Except RepositoryError Unit) :
    Handled webhookId body [⟨.listAutomations .all, .ok automations⟩,
      ⟨.updateAutomation (a.captureSample webhookId body), saved⟩]
      ((saved.mapError .repository).map fun _ => .sampleCaptured a.id)
  | phoneless {automations : List Automation} {a : Automation} (found : receiver? webhookId automations = some a)
    (quiet : a.listensOn? webhookId ≠ some true) (missing : phone? body = none) :
    Handled webhookId body [⟨.listAutomations .all, .ok automations⟩] (.error .missingPhone)
  | served {automations : List Automation} {a : Automation} {phone : String} {l : List Exchange}
    {x : Except IntakeError IntakeOutcome} (found : receiver? webhookId automations = some a)
    (quiet : a.listensOn? webhookId ≠ some true) (given : phone? body = some phone)
    (served : Served settings limit a.userId phone body l x) :
    Handled webhookId body (⟨.listAutomations .all, .ok automations⟩ :: l) x

end

variable {x : Except IntakeError IntakeOutcome}

theorem serve_yields_iff :
    (serve settings limit owner phone body).Yields l x ↔ Served settings limit owner phone body l x := by
  unfold serve
  rw [Attempt.yields_bind]
  simp only [contactFor_yields_iff]
  constructor
  · intro h
    obtain ⟨e, hfinds, rfl⟩ | ⟨⟨contact, created⟩, l₁, l₂, rfl, hfinds, h⟩ := h
    · exact .unfound hfinds
    rw [stored, Attempt.yields_bind_asked fun _ _ => Program.yields_request] at h
    obtain ⟨e, rfl, rfl⟩ | ⟨found, rest, rfl, h⟩ := h
    · exact .connectionFailed hfinds e
    cases found with
    | none =>
      obtain ⟨rfl, rfl⟩ := h
      exact .unconnected hfinds
    | some connection =>
      dsimp only at h
      rw [Attempt.yields_bind] at h
      obtain ⟨e, hfire, rfl⟩ | ⟨reports, l₁, l₂, rfl, hfire, rfl, rfl⟩ := h
      · obtain ⟨new, -, herror⟩ | ⟨error, hstops, herror⟩ := fireEach_yields_iff.mp hfire
        · cases herror
        · cases herror
          exact .stopped hfinds hstops
      · obtain ⟨new, hfired, hreports⟩ | ⟨error, -, herror⟩ := fireEach_yields_iff.mp hfire
        · cases hreports
          rw [List.append_nil]
          exact .dispatched hfinds hfired
        · cases herror
  · intro h
    cases h with
    | unfound finds => exact .inl ⟨_, finds, rfl⟩
    | connectionFailed finds e =>
      refine .inr ⟨_, _, _, rfl, finds, (Attempt.yields_bind_asked fun _ _ => Program.yields_request).mpr ?_⟩
      exact .inl ⟨e, rfl, rfl⟩
    | unconnected finds =>
      refine .inr ⟨_, _, _, rfl, finds, (Attempt.yields_bind_asked fun _ _ => Program.yields_request).mpr ?_⟩
      exact .inr ⟨none, [], rfl, rfl, rfl⟩
    | stopped finds stops =>
      refine .inr ⟨_, _, _, rfl, finds, (Attempt.yields_bind_asked fun _ _ => Program.yields_request).mpr ?_⟩
      refine .inr ⟨some _, _, rfl, Attempt.yields_bind.mpr (.inl ⟨_, ?_, rfl⟩)⟩
      exact fireEach_yields_iff.mpr (.inr ⟨_, stops, rfl⟩)
    | @dispatched _ ls _ _ _ reports finds fired =>
      refine .inr ⟨_, _, _, rfl, finds, (Attempt.yields_bind_asked fun _ _ => Program.yields_request).mpr ?_⟩
      refine .inr ⟨some _, _, rfl, Attempt.yields_bind.mpr (.inr ⟨reports, ls, [], ?_, ?_, rfl, rfl⟩)⟩
      · exact (List.append_nil ls).symm
      · exact fireEach_yields_iff.mpr (.inl ⟨reports, fired, rfl⟩)

theorem Served.isIntake (h : Served settings limit owner phone body l x) : ∀ e ∈ l, e.request.IsIntake := by
  cases h with
  | unfound finds => exact finds.isIntake
  | connectionFailed finds | unconnected finds =>
    exact List.forall_mem_append.mpr ⟨finds.isIntake, List.forall_mem_singleton.mpr (.inl trivial)⟩
  | stopped finds stops =>
    refine List.forall_mem_append.mpr ⟨finds.isIntake, List.forall_mem_cons.mpr ⟨.inl trivial, fun e he => ?_⟩⟩
    exact (stops.isFiring e he).isIntake
  | dispatched finds fired =>
    refine List.forall_mem_append.mpr ⟨finds.isIntake, List.forall_mem_cons.mpr ⟨.inl trivial, fun e he => ?_⟩⟩
    exact (fired.isFiring e he).isIntake

theorem handle_yields_iff :
    (handle settings limit webhookId body).Yields l x ↔ Handled settings limit webhookId body l x := by
  rw [handle_eq, stored, Attempt.yields_bind_asked fun _ _ => Program.yields_request]
  constructor
  · intro h
    obtain ⟨e, rfl, rfl⟩ | ⟨automations, rest, rfl, h⟩ := h
    · exact .unlisted e
    split at h
    · obtain ⟨rfl, rfl⟩ := h
      exact .unknown ‹_›
    · rename_i a hfound
      split at h
      · rename_i hlistens
        rw [stored, Attempt.yields_bind_asked fun _ _ => Program.yields_request] at h
        obtain ⟨e, rfl, rfl⟩ | ⟨_, rest, rfl, rfl, rfl⟩ := h
        · exact .captured hfound (beq_iff_eq.mp hlistens) (.error e)
        · exact .captured hfound (beq_iff_eq.mp hlistens) (.ok ())
      · rename_i hquiet
        rw [beq_iff_eq] at hquiet
        split at h
        · obtain ⟨rfl, rfl⟩ := h
          exact .phoneless hfound hquiet ‹_›
        · exact .served hfound hquiet ‹_› (serve_yields_iff.mp h)
  · intro h
    cases h with
    | unlisted e => exact .inl ⟨e, rfl, rfl⟩
    | unknown absent =>
      refine .inr ⟨_, [], rfl, ?_⟩
      simp only [absent]
      exact ⟨rfl, rfl⟩
    | captured found listening saved =>
      refine .inr ⟨_, _, rfl, ?_⟩
      simp only [found, listening, beq_self_eq_true, if_true]
      refine (Attempt.yields_bind_asked fun _ _ => Program.yields_request).mpr ?_
      cases saved with
      | error e => exact .inl ⟨e, rfl, rfl⟩
      | ok _ => exact .inr ⟨(), [], rfl, rfl, rfl⟩
    | phoneless found quiet missing =>
      refine .inr ⟨_, [], rfl, ?_⟩
      simp only [found, missing, beq_iff_eq, quiet, if_false]
      exact ⟨rfl, rfl⟩
    | served found quiet given served =>
      refine .inr ⟨_, _, rfl, ?_⟩
      simp only [found, given, beq_iff_eq, quiet, if_false]
      exact serve_yields_iff.mpr served

end Intake
end Outreach
