import Outreach.Engine.Intake
import Outreach.Proofs.Attempts
import Outreach.Proofs.Engine.Program
import Outreach.Proofs.Service.Answers
import Outreach.Proofs.Uuid

/-! Webhook requests that are turned away. An unknown webhook or a missing phone leaves everything as it was; a missing
connection is noticed only once the contact is there, so that the contact stays and a later request finds it. -/
namespace Outreach

def IntakeError.IsRejection : IntakeError → Prop
  | .unknownWebhook _ | .missingPhone | .noConnection _ => True
  | .repository _ | .fire _ => False

theorem Database.createContact_eq {now : Instant} {c : NewContact} {contact : Contact} {db db' : Database}
    (h : db.createContact now c = .ok (contact, db')) :
    (contact.userId = c.userId ∧ contact.phone = c.phone ∧ contact.tags = distinct c.tags) ∧
      db' = { db with contacts := db.contacts ++ [.ofContact contact], lastContactId := db.lastContactId + 1 } := by
  simp only [createContact] at h
  split at h
  · cases h
  · cases h
    exact ⟨⟨rfl, rfl, rfl⟩, rfl⟩

/-- A contact that is not found is in no row, readable or not. -/
theorem Database.findContact_eq_none {user : Uuid} {phone : String} {db : Database} :
    db.findContact user phone = .ok none ↔ ∀ row ∈ db.contacts, row.userId = user.text → row.phone ≠ phone := by
  have hfind : db.findContact user phone = .ok none ↔
      (db.contacts.find? fun r => r.userId == user.text && r.phone == phone) = none := by
    rw [findContact]
    cases db.contacts.find? fun r => r.userId == user.text && r.phone == phone with
    | none => exact ⟨fun _ => rfl, fun _ => rfl⟩
    | some row =>
      refine ⟨fun h => ?_, fun h => by cases h⟩
      cases hread : row.read with
      | ok c => simp [hread] at h
      | error e => simp [hread] at h
  rw [hfind, List.find?_eq_none]
  simp

/-- Nobody has taken the phone of a contact that is not found. -/
theorem Database.createContact_of_absent (now : Instant) {c : NewContact} {db : Database}
    (h : db.findContact c.userId c.phone = .ok none) : ∃ contact db', db.createContact now c = .ok (contact, db') := by
  have hfree : db.phoneTaken (db.lastContactId + 1) c.userId.text c.phone = false := by
    apply List.any_eq_false.mpr
    intro row hrow htaken
    simp only [Bool.and_eq_true, beq_iff_eq] at htaken
    exact findContact_eq_none.mp h row hrow htaken.1.2 htaken.2
  simp only [createContact]
  split
  · rename_i htaken
    cases hfree.symm.trans htaken
  · exact ⟨_, _, rfl⟩

namespace Intake
open Program Service Database
variable {around : Surroundings} {settings : EngineSettings} {limit : Nat} {webhookId : String} {body : Json}
  {s s' : Service} {owner : Uuid} {phone : String}

def dispatch (settings : EngineSettings) (limit : Nat) (owner : Uuid) (connection : Connection) (contact : Contact)
    (created : Bool) (events : List Event) : Intake.Attempt IntakeOutcome := do
  let reports ← fireEach settings limit contact.id (.user owner (some connection)) [] events
  return .dispatched contact.id created reports

/-- A request that comes to its events: its webhook is active and does not listen, it has a phone, the owner has a
connection, and contact and boards can be looked up. -/
structure Admitted (s : Service) (webhookId : String) (body : Json) (a : Automation) (phone : String)
    (connection : Connection) : Prop where
  found : ∃ automations, s.db.listAutomations .all = .ok automations ∧
    automations.find? (fun a => a.status == .active && (a.listensOn? webhookId).isSome) = some a
  quiet : (a.listensOn? webhookId == some true) = false
  given : phone? body = some phone
  connected : s.db.firstConnection a.userId = .ok (some connection)
  contact : ∃ found, s.db.findContact a.userId phone = .ok found
  boards : ∃ boards, s.db.listBoards a.userId = .ok boards

theorem answer_createContact (around : Surroundings) {c : NewContact} {contact : Contact} :
    answer around (.createContact c) s = (.ok contact, s') ↔
      ∃ db, s.db.createContact s.clock c = .ok (contact, db) ∧ s' = { s.tick.2 with db := db } := by
  simp only [answer, tick_fst, tick_db]
  cases s.db.createContact s.clock c with
  | ok made =>
    obtain ⟨made, db⟩ := made
    constructor
    · intro h
      cases h
      exact ⟨db, rfl, rfl⟩
    · intro h
      obtain ⟨db', hmade, hs'⟩ := h
      cases hmade
      rw [hs']
      rfl
  | error e =>
    constructor
    · intro h
      cases h
    · intro h
      obtain ⟨db, hmade, -⟩ := h
      cases hmade

theorem fireEach_error {contactId : Int} {scope : Scope} {reports : List DispatchReport} {events : List Event}
    {e : IntakeError} (h : (fireEach settings limit contactId scope reports events).run.run (answer around) s =
      some (.error e, s')) : ¬ e.IsRejection := by
  induction events generalizing s reports with
  | nil => cases h
  | cons event rest ih =>
    obtain ⟨e', hfire, heq⟩ | ⟨report, s₁, -, hrest⟩ := Attempt.run_bind_eq_some.mp h
    · cases heq
      obtain ⟨fault, rfl⟩ := Attempt.error_of_run hfire
      exact id
    · exact ih hrest

inductive Provided (s : Service) (owner : Uuid) (phone : String) (body : Json) :
    Except IntakeError (Contact × Bool) → Service → Prop where
  | known {contact : Contact} (found : s.db.findContact owner phone = .ok (some contact)) :
    Provided s owner phone body (.ok (contact, false)) s
  | made {contact : Contact} {s₁ : Service} (absent : s.db.findContact owner phone = .ok none)
    (given : contact.userId = owner ∧ contact.phone = phone ∧ contact.tags = distinct (tags body))
    (kept : s₁.db = { s.db with
      contacts := s.db.contacts ++ [.ofContact contact], lastContactId := s.db.lastContactId + 1 }) :
    Provided s owner phone body (.ok (contact, true)) s₁
  | failed (e : RepositoryError) (s₁ : Service) : Provided s owner phone body (.error (.repository e)) s₁

theorem provided_of_run {x : Except IntakeError (Contact × Bool)}
    (h : (contactFor owner phone body).run.run (answer around) s = some (x, s')) :
    Provided s owner phone body x s' := by
  unfold contactFor at h
  obtain ⟨e, hfind, rfl⟩ | ⟨found, s₁, hfind, h⟩ := Attempt.run_bind_eq_some.mp h
  · obtain ⟨fault, rfl⟩ := Attempt.error_of_run hfind
    exact .failed fault s'
  · obtain ⟨hfound, rfl⟩ : s.db.findContact owner phone = .ok found ∧ s = s₁ := by
      simpa [Program.request, Program.run, answer] using Attempt.ok_of_run hfind
    cases found with
    | some contact =>
      cases h
      exact .known hfound
    | none =>
      obtain ⟨e, hboards, rfl⟩ | ⟨boards, s₁, hboards, h⟩ := Attempt.run_bind_eq_some.mp h
      · obtain ⟨fault, rfl⟩ := Attempt.error_of_run hboards
        exact .failed fault s'
      · obtain ⟨-, rfl⟩ : s.db.listBoards owner = .ok boards ∧ s = s₁ := by
          simpa [Program.request, Program.run, answer] using Attempt.ok_of_run hboards
        obtain ⟨e, hmade, rfl⟩ | ⟨contact, s₁, hmade, h⟩ := Attempt.run_bind_eq_some.mp h
        · obtain ⟨fault, rfl⟩ := Attempt.error_of_run hmade
          exact .failed fault s'
        · cases h
          have hanswer : answer around (.createContact (newContact owner phone body boards)) s = (.ok contact, s') :=
            Option.some.inj (Attempt.ok_of_run hmade)
          obtain ⟨db, hdb, rfl⟩ := (answer_createContact around).mp hanswer
          obtain ⟨hgiven, rfl⟩ := createContact_eq hdb
          exact .made hfound hgiven rfl

/-- Only a missing connection is noticed once the contact is there. -/
theorem provided_of_rejected {e : IntakeError} (he : e.IsRejection)
    (h : (handle settings limit webhookId body).run.run (answer around) s = some (.error e, s')) :
    ((∀ owner, e ≠ .noConnection owner) ∧ s' = s) ∨ ∃ owner phone provided, e = .noConnection owner ∧
      phone? body = some phone ∧ Provided s owner phone body (.ok provided) s' := by
  unfold handle at h
  obtain ⟨e', hlist, heq⟩ | ⟨automations, s₁, hlist, h⟩ := Attempt.run_bind_eq_some.mp h
  · cases heq
    obtain ⟨fault, rfl⟩ := Attempt.error_of_run hlist
    exact False.elim he
  obtain ⟨-, rfl⟩ : s.db.listAutomations .all = .ok automations ∧ s = s₁ := by
    simpa [Program.request, Program.run, answer] using Attempt.ok_of_run hlist
  split at h
  · cases h
    exact .inl ⟨fun _ h => (by cases h), rfl⟩
  · rename_i a hfound
    split at h
    · obtain ⟨e', hupdate, heq⟩ | ⟨_, s₁, -, h⟩ := Attempt.run_bind_eq_some.mp h
      · cases heq
        obtain ⟨fault, rfl⟩ := Attempt.error_of_run hupdate
        exact False.elim he
      · cases h
    · split at h
      · cases h
        exact .inl ⟨fun _ h => (by cases h), rfl⟩
      · rename_i phone hphone
        obtain ⟨e', hcontact, heq⟩ | ⟨⟨contact, created⟩, s₁, hcontact, h⟩ := Attempt.run_bind_eq_some.mp h
        · cases heq
          cases provided_of_run hcontact
          exact False.elim he
        · obtain ⟨e', hconnection, heq⟩ | ⟨connection, s₂, hconnection, h⟩ := Attempt.run_bind_eq_some.mp h
          · cases heq
            obtain ⟨fault, rfl⟩ := Attempt.error_of_run hconnection
            exact False.elim he
          · obtain ⟨-, rfl⟩ : s₁.db.firstConnection a.userId = .ok connection ∧ s₁ = s₂ := by
              simpa [Program.request, Program.run, answer] using Attempt.ok_of_run hconnection
            cases connection with
            | none =>
              cases h
              exact .inr ⟨a.userId, phone, _, rfl, hphone, provided_of_run hcontact⟩
            | some connection =>
              obtain ⟨e', hfire, heq⟩ | ⟨reports, s₂, -, h⟩ := Attempt.run_bind_eq_some.mp h
              · cases heq
                exact absurd he (fireEach_error hfire)
              · cases h

section
variable {a : Automation} {connection : Connection} {contact : Contact}

/-- Once the contact is there, an admitted request fires its events. -/
theorem Admitted.dispatches (h : Admitted s webhookId body a phone connection) {created : Bool}
    (hcontact : (contactFor a.userId phone body).run.run (answer around) s = some (.ok (contact, created), s'))
    (hconnections : s'.db.connections = s.db.connections) :
    (handle settings limit webhookId body).run.run (answer around) s =
      (dispatch settings limit a.userId connection contact created (events body contact created)).run.run
        (answer around) s' := by
  obtain ⟨automations, hlist, hfound⟩ := h.found
  have hlisted : (Program.request (.listAutomations .all)).run (answer around) s = some (.ok automations, s) :=
    congrArg (fun x => some (x, s)) hlist
  have hfirst : s'.db.firstConnection a.userId = .ok (some connection) := by
    rw [← h.connected, firstConnection, firstConnection, connectionRows, connectionRows, hconnections]
  have hconnected : (Program.request (.firstConnection a.userId)).run (answer around) s' =
      some (.ok (some connection), s') :=
    congrArg (fun x => some (x, s')) hfirst
  unfold handle
  refine (Attempt.run_bind_of_ok (Attempt.run_of_ok hlisted)).trans ?_
  simp only [hfound, h.quiet, h.given]
  refine (Attempt.run_bind_of_ok hcontact).trans ?_
  exact Attempt.run_bind_of_ok (Attempt.run_of_ok hconnected)

/-- For a contact that is there already, an admitted request fires the webhook event alone. -/
theorem Admitted.known (h : Admitted s webhookId body a phone connection)
    (hknown : s.db.findContact a.userId phone = .ok (some contact)) :
    (handle settings limit webhookId body).run.run (answer around) s =
      (dispatch settings limit a.userId connection contact false [.webhook body]).run.run (answer around) s := by
  have hfind : (Program.request (.findContact a.userId phone)).run (answer around) s = some (.ok (some contact), s) :=
    congrArg (fun x => some (x, s)) hknown
  exact h.dispatches (Attempt.run_bind_of_ok (Attempt.run_of_ok hfind)) rfl

/-- For a contact that is not there yet, it makes it and fires the event of its creation and one for each tag as well. -/
theorem Admitted.absent (h : Admitted s webhookId body a phone connection)
    (habsent : s.db.findContact a.userId phone = .ok none) : ∃ contact s',
      (contact.userId = a.userId ∧ contact.phone = phone ∧ contact.tags = distinct (tags body)) ∧
      s'.db = { s.db with
        contacts := s.db.contacts ++ [.ofContact contact], lastContactId := s.db.lastContactId + 1 } ∧
      (handle settings limit webhookId body).run.run (answer around) s =
        (dispatch settings limit a.userId connection contact true
          (.webhook body :: .contactCreated :: contact.tags.map .tagAdded)).run.run (answer around) s' := by
  obtain ⟨boards, hboards⟩ := h.boards
  obtain ⟨contact, db, hmade⟩ :=
    createContact_of_absent (c := newContact a.userId phone body boards) s.clock habsent
  have hfind : (Program.request (.findContact a.userId phone)).run (answer around) s = some (.ok none, s) :=
    congrArg (fun x => some (x, s)) habsent
  have hlisted : (Program.request (.listBoards a.userId)).run (answer around) s = some (.ok boards, s) :=
    congrArg (fun x => some (x, s)) hboards
  have hcreated : (Program.request (.createContact (newContact a.userId phone body boards))).run (answer around) s =
      some (.ok contact, { s.tick.2 with db := db }) :=
    congrArg some ((answer_createContact around).mpr ⟨db, hmade, rfl⟩)
  have hcontact : (contactFor a.userId phone body).run.run (answer around) s =
      some (.ok (contact, true), { s.tick.2 with db := db }) := by
    refine (Attempt.run_bind_of_ok (Attempt.run_of_ok hfind)).trans ?_
    refine (Attempt.run_bind_of_ok (Attempt.run_of_ok hlisted)).trans ?_
    exact Attempt.run_bind_of_ok (Attempt.run_of_ok hcreated)
  obtain ⟨hgiven, rfl⟩ := createContact_eq hmade
  exact ⟨contact, _, hgiven, rfl, h.dispatches hcontact rfl⟩

end

def Leaves (s : Service) (body : Json) (s' : Service) : IntakeError → Prop
  | .noConnection owner => ∃ phone, phone? body = some phone ∧
    ((∃ contact, s.db.findContact owner phone = .ok (some contact)) ∧ s' = s ∨
      s.db.findContact owner phone = .ok none ∧ ∃ contact, contact.userId = owner ∧ contact.phone = phone ∧
        s'.db = { s.db with
          contacts := s.db.contacts ++ [.ofContact contact], lastContactId := s.db.lastContactId + 1 })
  | _ => s' = s

theorem leaves_of_rejected {e : IntakeError} (he : e.IsRejection)
    (h : (handle settings limit webhookId body).run.run (answer around) s = some (.error e, s')) :
    Leaves s body s' e := by
  obtain ⟨hother, rfl⟩ | ⟨owner, phone, provided, rfl, hphone, hprovided⟩ := provided_of_rejected he h
  · cases e with
    | noConnection owner => exact absurd rfl (hother owner)
    | _ => rfl
  · refine ⟨phone, hphone, ?_⟩
    cases hprovided with
    | known found => exact .inl ⟨⟨_, found⟩, rfl⟩
    | made absent given kept => exact .inr ⟨absent, _, given.1, given.2.1, kept⟩

/-- The contact that was made is there afterwards, and no other. -/
theorem Leaves.absent_iff {e : IntakeError} (h : Leaves s body s' e) (habsent : s.db.findContact owner phone = .ok none) :
    s'.db.findContact owner phone = .ok none ↔ ¬ (e = .noConnection owner ∧ phone? body = some phone) := by
  cases e with
  | noConnection owner' =>
    obtain ⟨phone', hphone, ⟨⟨contact, hknown⟩, rfl⟩ | ⟨-, contact, rfl, rfl, hdb⟩⟩ := h
    · apply iff_of_true habsent
      intro hsame
      cases hsame.1
      cases hphone.symm.trans hsame.2
      cases hknown.symm.trans habsent
    · rw [findContact_eq_none, hdb, List.forall_mem_append, List.forall_mem_singleton]
      rw [and_iff_right (findContact_eq_none.mp habsent), hphone]
      simp [ContactRow.ofContact, Uuid.text_inj]
  | _ =>
    obtain rfl : s' = s := h
    exact iff_of_true habsent fun hsame => by cases hsame.1

/-- Requests that are turned away leave everything as it was, but for the contact that was made before a connection
was missed. What comes next for a contact that did not exist makes it and fires the event of its creation and one for
each of its tags, but for the contact that was left: it is found, and only the webhook event is fired. -/
theorem handle_after_rejection {e : IntakeError} (he : e.IsRejection)
    (h : (handle settings limit webhookId body).run.run (answer around) s = some (.error e, s')) :
    Leaves s body s' e ∧ ∀ (t : Service) (webhookId' : String) (body' : Json) (a : Automation) (phone : String)
      (connection : Connection), t.db.contacts = s'.db.contacts → Admitted t webhookId' body' a phone connection →
      s.db.findContact a.userId phone = .ok none →
      ((¬ (e = .noConnection a.userId ∧ phone? body = some phone)) → ∃ contact t',
        (contact.userId = a.userId ∧ contact.phone = phone ∧ contact.tags = distinct (tags body')) ∧
        t'.db = { t.db with
          contacts := t.db.contacts ++ [.ofContact contact], lastContactId := t.db.lastContactId + 1 } ∧
        (handle settings limit webhookId' body').run.run (answer around) t =
          (dispatch settings limit a.userId connection contact true
            (.webhook body' :: .contactCreated :: contact.tags.map .tagAdded)).run.run (answer around) t') ∧
      (e = .noConnection a.userId ∧ phone? body = some phone → ∃ contact,
        t.db.findContact a.userId phone = .ok (some contact) ∧
        (handle settings limit webhookId' body').run.run (answer around) t =
          (dispatch settings limit a.userId connection contact false [.webhook body']).run.run (answer around) t) := by
  have hleaves := leaves_of_rejected he h
  refine ⟨hleaves, fun t webhookId' body' a phone connection hcontacts hadmitted habsent => ?_⟩
  have hsame : t.db.findContact a.userId phone = s'.db.findContact a.userId phone := by
    rw [findContact, findContact, hcontacts]
  refine ⟨fun hother => ?_, fun hleft => ?_⟩
  · exact hadmitted.absent (hsame.trans ((hleaves.absent_iff habsent).mpr hother))
  · obtain ⟨found, hfound⟩ := hadmitted.contact
    cases found with
    | none => exact absurd hleft ((hleaves.absent_iff habsent).mp (hsame.symm.trans hfound))
    | some contact => exact ⟨contact, hfound, hadmitted.known hfound⟩

def newcomer : Json := .obj [("phone", .str "5581977776666"), ("tags", .arr [.str "vip"])]

def unconnected : Service :=
  .new ⟨[.ofAutomation ⟨default, default, "welcome", .active, [⟨"t", .trigger (.webhook "hook" false none), none⟩], [],
    ⟨1717408800, 0⟩, true, false, []⟩], [], [], [], [], 0, 0⟩ ⟨1717408800, 0⟩ 0

def connected (s : Service) : Service :=
  { s with db := { s.db with connections := [.ofConnection ⟨default, default, "main", "1", "2", "key",
    ⟨1717408800, 0⟩⟩] } }

def call (s : Service) : Option (Except IntakeError IntakeOutcome × Service) :=
  (handle Surroundings.offline.settings 8 "hook" newcomer).run.run (answer .offline) s

def fired? : Except IntakeError IntakeOutcome → Option (Bool × Nat)
  | .ok (.dispatched _ created reports) => some (created, reports.length)
  | _ => none

def refusal? : Except IntakeError IntakeOutcome → Option IntakeError
  | .ok _ => none
  | .error e => some e

theorem eq_error_of_refusal? {x : Except IntakeError IntakeOutcome} {e : IntakeError} (h : refusal? x = some e) :
    x = .error e := by
  cases x with
  | ok outcome => cases h
  | error e' => exact congrArg Except.error (Option.some.inj h)

def provides (s : Service) : Bool :=
  ((s.db.listAutomations .all).toOption.bind fun as =>
      (as.find? fun a => a.status == .active && (a.listensOn? "hook").isSome).map fun a =>
        (a.userId, a.listensOn? "hook" == some true)) == some (default, false) &&
    ((s.db.firstConnection default).toOption.bind id).isSome &&
    (s.db.findContact default "5581977776666").toOption.isSome && (s.db.listBoards default).toOption.isSome

theorem call_unconnected : ((call unconnected).map fun x => (refusal? x.1, x.2.db.contacts.length,
    provides (connected x.2), (call (connected x.2)).bind fun y => fired? y.1)) =
      some (some (.noConnection default), 1, true, some (false, 1)) := by
  decide +kernel

/-- The call without a connection leaves a contact, and the next one fires one event in place of three. -/
theorem contact_left_by_call : ∃ s', call unconnected = some (.error (.noConnection default), s') ∧
    unconnected.db.contacts = [] ∧ s'.db.contacts.length = 1 ∧
    ((call (connected unconnected)).bind fun x => fired? x.1) = some (true, 3) ∧
    ((call (connected s')).bind fun x => fired? x.1) = some (false, 1) := by
  obtain ⟨⟨x, s'⟩, hcall, hseen⟩ := Option.map_eq_some_iff.mp call_unconnected
  obtain rfl := eq_error_of_refusal? (congrArg Prod.fst hseen)
  exact ⟨s', hcall, rfl, congrArg (·.2.1) hseen, by decide +kernel, congrArg (·.2.2.2) hseen⟩

theorem admitted_of_provides {s : Service} (h : provides s = true) :
    ∃ a connection, a.userId = default ∧ Admitted s "hook" newcomer a "5581977776666" connection := by
  simp only [provides, Bool.and_eq_true, beq_iff_eq] at h
  obtain ⟨⟨⟨hlist, hfirst⟩, hcontact⟩, hboards⟩ := h
  obtain ⟨automations, hautomations, hfound⟩ := Option.bind_eq_some_iff.mp hlist
  obtain ⟨a, ha, hpair⟩ := Option.map_eq_some_iff.mp hfound
  obtain ⟨hown, hquiet⟩ := Prod.mk.inj hpair
  obtain ⟨connection, hsome⟩ := Option.isSome_iff_exists.mp hfirst
  obtain ⟨first, hconnection, rfl⟩ := Option.bind_eq_some_iff.mp hsome
  obtain ⟨found, hfound⟩ := Option.isSome_iff_exists.mp hcontact
  obtain ⟨boards, hboards⟩ := Option.isSome_iff_exists.mp hboards
  refine ⟨a, connection, hown, ⟨automations, eq_ok_of_toOption hautomations, ha⟩, hquiet, by decide, ?_, ?_, ?_⟩
  · exact hown ▸ eq_ok_of_toOption hconnection
  · exact ⟨found, hown ▸ eq_ok_of_toOption hfound⟩
  · exact ⟨boards, hown ▸ eq_ok_of_toOption hboards⟩

/-- The first call of the newcomer is turned away, and the next one finds the contact that it left. -/
theorem handle_after_call : ∃ s' connection contact, call unconnected = some (.error (.noConnection default), s') ∧
    (connected s').db.findContact default "5581977776666" = .ok (some contact) ∧
    call (connected s') = (dispatch Surroundings.offline.settings 8 default connection contact false
      [.webhook newcomer]).run.run (answer .offline) (connected s') := by
  obtain ⟨⟨x, s'⟩, hcall, hseen⟩ := Option.map_eq_some_iff.mp call_unconnected
  obtain rfl := eq_error_of_refusal? (congrArg Prod.fst hseen)
  obtain ⟨a, connection, hown, hadmitted⟩ := admitted_of_provides (congrArg (·.2.2.1) hseen)
  obtain ⟨-, hretry⟩ := handle_after_rejection (e := .noConnection default) trivial hcall
  have habsent : unconnected.db.findContact a.userId "5581977776666" = .ok none := rfl
  obtain ⟨contact, hfound, hfires⟩ := (hretry (connected s') "hook" newcomer a "5581977776666" connection rfl hadmitted
    habsent).2 ⟨by rw [hown], by decide⟩
  exact ⟨s', connection, contact, hcall, hown ▸ hfound, hown ▸ hfires⟩

end Intake
end Outreach
