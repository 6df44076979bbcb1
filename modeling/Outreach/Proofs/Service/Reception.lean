import Outreach.Proofs.Database.Contacts
import Outreach.Proofs.Database.Graphs
import Outreach.Proofs.Engine.Intake
import Outreach.Proofs.Service.Dispatch
import Outreach.Proofs.Service.Rejection

/-! Which events a webhook request fires. For a contact that is there it is the webhook event alone; one that is not is
made of the body, and its creation and its tags are events as well. -/
namespace Outreach
open Program Service

theorem Database.userId_of_listed {db : Database} {user : Uuid} {listed : List Automation}
    (h : db.listAutomations (.user user) = .ok listed) : ∀ a ∈ listed, a.userId = user := by
  intro a ha
  obtain ⟨r, hr, hread⟩ := mem_of_mapM h a ha
  have hr := (List.mem_filter.mp ((List.mergeSort_perm _ _).mem_iff.mp hr)).2
  have huser := (AutomationRow.holds_of_read hread).userId
  rw [beq_iff_eq.mp hr, Stored.uuid, Uuid.parse?_text] at huser
  exact (Except.ok.inj huser).symm

theorem Loads.exists_fault {contactId : Int} {scope : Scope} {loading : List Exchange} {e : FireError}
    (h : Loads contactId scope loading (.error e)) :
    ∃ exchange ∈ loading, exchange.request.IsLookup ∧ exchange.request.IsFault exchange.reply := by
  cases h with
  | contactFailed e => exact ⟨_, List.mem_cons_self, trivial, e, rfl⟩
  | connectionFailed reachable lacking e => exact ⟨_, List.mem_cons_of_mem _ List.mem_cons_self, trivial, e, rfl⟩
  | automationsFailed reachable connects e => exact ⟨_, List.mem_append_right _ List.mem_cons_self, trivial, e, rfl⟩

namespace Intake
variable {around : Surroundings} {settings : EngineSettings} {limit : Nat} {s s' : Service} {l : List Exchange}
  {contactId : Int} {user : Uuid} {connection : Connection}

theorem StopsAt.exists_fault {scope : Scope} {events : List Event} {e : FireError}
    (h : StopsAt settings limit contactId scope events l e) :
    ∃ exchange ∈ l, exchange.request.IsLookup ∧ exchange.request.IsFault exchange.reply := by
  induction h with
  | here rest fails =>
    cases fails with
    | failed loads => exact loads.exists_fault
  | later fired stops ih =>
    obtain ⟨exchange, hmem, hfault⟩ := ih
    exact ⟨exchange, List.mem_append_right _ hmem, hfault⟩

theorem FiredEach.lookups {scope : Scope} {events : List Event} {reports : List DispatchReport}
    (h : FiredEach settings limit contactId scope events l reports) (hnone : ∀ report ∈ reports, report.matched = []) :
    ∀ e ∈ l, e.request.IsLookup := by
  induction h with
  | nil => exact List.forall_mem_nil _
  | cons fired others ih =>
    obtain ⟨hreport, hnone⟩ := List.forall_mem_cons.mp hnone
    refine List.forall_mem_append.mpr ⟨?_, ih hnone⟩
    cases fired with
    | skipped loads => exact loads.lookups
    | ran loads runs =>
      rw [List.map_eq_nil_iff.mp hreport] at runs
      cases runs
      rw [List.append_nil]
      exact loads.lookups

theorem sameGraphs_of_answered (h : Answered (answer around) s l s') (hl : ∀ e ∈ l, e.request.KeepsGraphs) :
    s.db.SameGraphs s'.db := by
  induction h with
  | nil s => exact .refl _
  | @cons r s s' l rest ih =>
    obtain ⟨hr, hl⟩ := List.forall_mem_cons.mp hl
    exact ((answers_answer around r s).sameGraphs hr).trans (ih hl)

section
variable {db : Database} {automations : List Automation} (hlist : db.listAutomations .all = .ok automations)
  (hends : ∀ b ∈ automations, b.userId = user → b.status = .active → ∀ stats contact context connection,
    (execute settings limit { b with executionStats := stats } contact context connection none).Ends)
include hlist hends

/-- While the owner's runs end, so does the firing of an event. -/
theorem exists_fired (around : Surroundings) (event : Event) (contactId : Int) (connection : Connection)
    (hgraphs : db.SameGraphs s.db) : ∃ l x s', Fired settings limit event contactId (.user user (some connection)) l x ∧
      Answered (answer around) s l s' := by
  obtain ⟨loading, y, s₁, hloads, hanswered⟩ :=
    exists_loads (answer around) contactId (.user user (some connection)) s
  cases y with
  | error e => exact ⟨loading, _, s₁, .failed hloads, hanswered⟩
  | ok found =>
    cases found with
    | skip reason => exact ⟨loading, _, s₁, .skipped hloads, hanswered⟩
    | go contact connection listed =>
      have hready := hloads.ready ((serves_answer around).lookups hanswered hloads.lookups).2
      have hlisted : s.db.listAutomations (.user user) = .ok listed := hready.listed
      have hstarted (b' : Automation) (hb' : b' ∈ selectAutomations listed event contact) (t : Service) : ∃ x t',
          (execute settings limit b' contact (event.context contactId) connection none).run.run (answer around) t =
            some (x, t') := by
        obtain ⟨hb', hstarts⟩ := List.mem_filter.mp hb'
        obtain ⟨b, hb, heq⟩ := hgraphs.exists_listed hlist hlisted b' hb'
        have huser := Database.userId_of_listed hlisted b' hb'
        have hactive := (Automation.startsOn_iff.mp hstarts).active
        rw [heq] at huser hactive ⊢
        obtain ⟨x, t', hrun, -⟩ := (hends b hb huser hactive b'.executionStats contact (event.context contactId)
          connection).run (answer around) t
        exact ⟨x, t', hrun⟩
      obtain ⟨rest, attempts, s', hran, hrest⟩ := exists_ranEach hstarted s₁
      exact ⟨_, _, s', .ran hloads hran, answered_append.mpr ⟨s₁, hanswered, hrest⟩⟩

/-- While the owner's runs end, so does the firing of one event after the other. -/
theorem exists_firing (around : Surroundings) (events : List Event) (contactId : Int) (connection : Connection)
    (hgraphs : db.SameGraphs s.db) : ∃ l s', Answered (answer around) s l s' ∧
      ((∃ reports, FiredEach settings limit contactId (.user user (some connection)) events l reports) ∨
        ∃ e, StopsAt settings limit contactId (.user user (some connection)) events l e) := by
  induction events generalizing s with
  | nil => exact ⟨[], s, .nil s, .inl ⟨[], .nil⟩⟩
  | cons event rest ih =>
    obtain ⟨l, x, s₁, hfired, hanswered⟩ := exists_fired hlist hends around event contactId connection hgraphs
    cases x with
    | error e => exact ⟨l, s₁, hanswered, .inr ⟨e, .here rest hfired⟩⟩
    | ok report =>
      have hkept := sameGraphs_of_answered hanswered fun e he => (hfired.isFiring e he).keepsGraphs
      obtain ⟨ls, s', hrest, hend⟩ := ih (hgraphs.trans hkept)
      refine ⟨l ++ ls, s', answered_append.mpr ⟨s₁, hanswered, hrest⟩, ?_⟩
      obtain ⟨reports, heach⟩ | ⟨e, hstops⟩ := hend
      · exact .inl ⟨report :: reports, .cons hfired heach⟩
      · exact .inr ⟨e, .later hfired hstops⟩

end

variable {owner : Uuid} {phone webhookId : String} {body : Json} {a : Automation} {contact : Contact} {created : Bool}

theorem dispatch_eq_some_iff {events : List Event} {x : Except IntakeError IntakeOutcome} :
    (dispatch settings limit owner connection contact created events).run.run (answer around) s = some (x, s') ↔
      ∃ l, Answered (answer around) s l s' ∧
        ((∃ reports, FiredEach settings limit contact.id (.user owner (some connection)) events l reports ∧
            x = .ok (.dispatched contact.id created reports)) ∨
          ∃ e, StopsAt settings limit contact.id (.user owner (some connection)) events l e ∧ x = .error (.fire e)) := by
  rw [run_eq_some_iff]
  apply exists_congr
  intro l
  constructor
  · intro hruns
    refine ⟨hruns.answered, ?_⟩
    obtain ⟨e, hfire, rfl⟩ | ⟨reports, l₁, l₂, rfl, hfire, rfl, rfl⟩ := Attempt.yields_bind.mp hruns.yields
    · obtain ⟨new, -, herror⟩ | ⟨e', hstops, herror⟩ := fireEach_yields_iff.mp hfire
      · cases herror
      · cases herror
        exact .inr ⟨e', hstops, rfl⟩
    · obtain ⟨new, heach, hreports⟩ | ⟨e', -, herror⟩ := fireEach_yields_iff.mp hfire
      · cases hreports
        rw [List.append_nil]
        exact .inl ⟨new, heach, rfl⟩
      · cases herror
  · intro hend
    obtain ⟨hanswered, ⟨reports, heach, rfl⟩ | ⟨e, hstops, rfl⟩⟩ := hend
    · refine ⟨Attempt.yields_bind.mpr (.inr ⟨reports, l, [], (List.append_nil l).symm, ?_, rfl, rfl⟩), hanswered⟩
      exact fireEach_yields_iff.mpr (.inl ⟨reports, heach, rfl⟩)
    · refine ⟨Attempt.yields_bind.mpr (.inl ⟨.fire e, ?_, rfl⟩), hanswered⟩
      exact fireEach_yields_iff.mpr (.inr ⟨e, hstops, rfl⟩)

inductive Received (s : Service) (owner : Uuid) (phone : String) (body : Json) (boards : List Board) :
    Contact → Bool → Service → Prop where
  | known {contact : Contact} (found : s.db.findContact owner phone = .ok (some contact)) :
    Received s owner phone body boards contact false s
  | made {contact : Contact} {s₁ : Service} (absent : s.db.findContact owner phone = .ok none)
    (newcomer : Newcomer owner phone body boards contact)
    (kept : s₁.db = { s.db with
      contacts := s.db.contacts ++ [.ofContact contact], lastContactId := s.db.lastContactId + 1 }) :
    Received s owner phone body boards contact true s₁

theorem exists_received (around : Surroundings) (body : Json) {boards : List Board}
    (hlookup : ∃ found, s.db.findContact owner phone = .ok found) (hboards : s.db.listBoards owner = .ok boards) :
    ∃ contact created s₁, Received s owner phone body boards contact created s₁ ∧
      (contactFor owner phone body).run.run (answer around) s = some (.ok (contact, created), s₁) := by
  obtain ⟨found, hfound⟩ := hlookup
  have hfind : (Program.request (.findContact owner phone)).run (answer around) s = some (.ok found, s) :=
    congrArg (fun x => some (x, s)) hfound
  cases found with
  | some contact =>
    exact ⟨contact, false, s, .known hfound, Attempt.run_bind_of_ok (Attempt.run_of_ok hfind)⟩
  | none =>
    obtain ⟨contact, db, hmade⟩ := Database.createContact_of_absent (c := newContact owner phone body boards) s.clock hfound
    have hlisted : (Program.request (.listBoards owner)).run (answer around) s = some (.ok boards, s) :=
      congrArg (fun x => some (x, s)) hboards
    have hcreated : (Program.request (.createContact (newContact owner phone body boards))).run (answer around) s =
        some (.ok contact, { s.tick.2 with db := db }) :=
      congrArg some ((answer_createContact around).mpr ⟨db, hmade, rfl⟩)
    refine ⟨contact, true, { s.tick.2 with db := db }, .made hfound (newcomer_of_created hmade).1 ?_, ?_⟩
    · exact (Database.createContact_eq hmade).2
    · refine (Attempt.run_bind_of_ok (Attempt.run_of_ok hfind)).trans ?_
      refine (Attempt.run_bind_of_ok (Attempt.run_of_ok hlisted)).trans ?_
      exact Attempt.run_bind_of_ok (Attempt.run_of_ok hcreated)

theorem Received.kept {boards : List Board} {s₁ : Service} (h : Received s owner phone body boards contact created s₁) :
    s₁.db.automations = s.db.automations ∧ s₁.db.connections = s.db.connections := by
  cases h with
  | known => exact ⟨rfl, rfl⟩
  | made absent newcomer kept =>
    rw [kept]
    exact ⟨rfl, rfl⟩

/-- A request with a phone, for a webhook that does not listen and whose owner has a connection, fires the webhook event
with its body; when there was no contact with that phone, one is made of the body, and its creation and each of its tags
are events as well. Each event has its report, unless a lookup fails before its runs, and no event but by a run changes
anything. The request ends when the owner's runs do. -/
theorem handle_fires (around : Surroundings) (settings : EngineSettings) (limit : Nat) {s : Service} {webhookId : String}
    {body : Json} {automations : List Automation} {a : Automation} {phone : String} {connection : Connection}
    {boards : List Board} (hlist : s.db.listAutomations .all = .ok automations)
    (hfound : receiver? webhookId automations = some a) (hquiet : a.listensOn? webhookId = some false)
    (hgives : Gives body phone) (hconnected : s.db.firstConnection a.userId = .ok (some connection))
    (hlookup : ∃ found, s.db.findContact a.userId phone = .ok found) (hboards : s.db.listBoards a.userId = .ok boards) :
    ∃ contact created s₁, Received s a.userId phone body boards contact created s₁ ∧
      (∀ x s', (handle settings limit webhookId body).run.run (answer around) s = some (x, s') →
        ∃ l, Answered (answer around) s₁ l s' ∧
          ((∃ reports, x = .ok (.dispatched contact.id created reports) ∧
              FiredEach settings limit contact.id (.user a.userId (some connection))
                (.webhook body :: if created then .contactCreated :: contact.tags.map .tagAdded else []) l reports ∧
              reports.length = (if created then 2 + contact.tags.length else 1) ∧
              ((∀ report ∈ reports, report.matched = []) → s₁.Same s')) ∨
            ∃ e, x = .error (.fire e) ∧ ∃ exchange ∈ l, exchange.request.IsLookup ∧
              exchange.request.IsFault exchange.reply)) ∧
      ((∀ b ∈ automations, b.userId = a.userId → b.status = .active → ∀ stats contact context connection,
          (execute settings limit { b with executionStats := stats } contact context connection none).Ends) →
        ∃ x s', (handle settings limit webhookId body).run.run (answer around) s = some (x, s')) := by
  -- Up to the events the request goes one way only; what comes after is a firing of one event after the other.
  obtain ⟨contact, created, s₁, hreceived, hcontact⟩ := exists_received around body hlookup hboards
  have hadmitted : Admitted s webhookId body a phone connection :=
    { found := ⟨automations, hlist, hfound⟩
      quiet := by rw [hquiet]; rfl
      given := phone?_eq_some.mpr hgives
      connected := hconnected
      contact := hlookup
      boards := ⟨boards, hboards⟩ }
  have hdispatches : (handle settings limit webhookId body).run.run (answer around) s = _ :=
    hadmitted.dispatches hcontact hreceived.kept.2
  refine ⟨contact, created, s₁, hreceived, fun x s' hrun => ?_, fun hends => ?_⟩
  · rw [hdispatches] at hrun
    obtain ⟨l, hanswered, ⟨reports, heach, rfl⟩ | ⟨e, hstops, rfl⟩⟩ := dispatch_eq_some_iff.mp hrun
    · refine ⟨l, hanswered, .inl ⟨reports, rfl, heach, ?_, fun hnone => ?_⟩⟩
      · rw [heach.length]
        cases created with
        | true =>
          simp only [events, if_true, List.length_cons, List.length_map]
          omega
        | false => rfl
      · exact ((serves_answer around).lookups hanswered (heach.lookups hnone)).1
    · exact ⟨l, hanswered, .inr ⟨e, rfl, hstops.exists_fault⟩⟩
  · have hgraphs : s.db.SameGraphs s₁.db := .of_automations hreceived.kept.1
    obtain ⟨l, s', hanswered, hend⟩ := exists_firing hlist hends around (events body contact created) contact.id
      connection hgraphs
    rw [hdispatches]
    obtain ⟨reports, heach⟩ | ⟨e, hstops⟩ := hend
    · exact ⟨_, s', dispatch_eq_some_iff.mpr ⟨l, hanswered, .inl ⟨reports, heach, rfl⟩⟩⟩
    · exact ⟨_, s', dispatch_eq_some_iff.mpr ⟨l, hanswered, .inr ⟨e, hstops, rfl⟩⟩⟩

/-- The newcomer's webhook, which does not listen, and the connection of its owner. -/
theorem exists_receiver : ∃ automations a connection, (connected unconnected).db.listAutomations .all = .ok automations ∧
    receiver? "hook" automations = some a ∧ a.userId = default ∧ a.listensOn? "hook" = some false ∧
    (connected unconnected).db.firstConnection default = .ok (some connection) ∧
    ∀ b ∈ automations, b.edges = [] ∧ (b.nodes.map (·.id)).Nodup ∧ b.nodes.length ≤ 8 := by
  have hautomations : ((connected unconnected).db.listAutomations .all).toOption.bind (fun automations =>
      (receiver? "hook" automations).map fun a => (a.userId, a.listensOn? "hook", automations.all fun b =>
        b.edges.isEmpty && decide ((b.nodes.map (·.id)).Nodup ∧ b.nodes.length ≤ 8))) =
      some (default, some false, true) := by
    decide +kernel
  have hconnection : (((connected unconnected).db.firstConnection default).toOption.bind id).isSome = true := by
    decide +kernel
  obtain ⟨automations, hlist, hreceiver⟩ := Option.bind_eq_some_iff.mp hautomations
  obtain ⟨a, hfound, hpair⟩ := Option.map_eq_some_iff.mp hreceiver
  simp only [Prod.mk.injEq] at hpair
  obtain ⟨hown, hquiet, hplain⟩ := hpair
  obtain ⟨connection, hsome⟩ := Option.isSome_iff_exists.mp hconnection
  obtain ⟨first, hfirst, rfl⟩ := Option.bind_eq_some_iff.mp hsome
  refine ⟨automations, a, connection, eq_ok_of_toOption hlist, hfound, hown, hquiet, eq_ok_of_toOption hfirst, ?_⟩
  intro b hb
  simpa [List.isEmpty_iff] using List.all_eq_true.mp hplain b hb

theorem phone?_newcomer : phone? newcomer = some "5581977776666" := by decide

/-- The newcomer's call makes the contact, named after its phone, and fires three events. -/
theorem handle_fires_newcomer : ∃ contact s₁ reports s',
    Received (connected unconnected) default "5581977776666" newcomer [] contact true s₁ ∧
    contact.tags = ["vip"] ∧ contact.name = "Contato Webhook 6666" ∧
    call (connected unconnected) = some (.ok (.dispatched contact.id true reports), s') ∧ reports.length = 3 := by
  have hfires : (call (connected unconnected)).bind (fun x => fired? x.1) = some (true, 3) := by decide +kernel
  obtain ⟨automations, a, connection, hlist, hfound, hown, hquiet, hfirst, hplain⟩ := exists_receiver
  have hboards : (connected unconnected).db.listBoards a.userId = .ok [] := by
    simp [Database.listBoards, Database.byAge, connected, unconnected, Service.new, pure, Except.pure]
  obtain ⟨contact, created, s₁, hreceived, hfired, hruns⟩ := handle_fires .offline Surroundings.offline.settings 8
    hlist hfound hquiet (phone?_eq_some.mp phone?_newcomer) (hown ▸ hfirst) ⟨none, rfl⟩ hboards
  obtain ⟨x, s', hrun⟩ := hruns fun b hb _ _ stats contact context connection => by
    obtain ⟨hedges, hids, hlength⟩ := hplain b hb
    exact execute_ends_of_edges hedges hids hlength
  have hcall : call (connected unconnected) = some (x, s') := hrun
  rw [hcall] at hfires
  obtain ⟨l, -, ⟨reports, rfl, -, hlength, -⟩ | ⟨e, rfl, -⟩⟩ := hfired x s' hrun
  · obtain ⟨rfl, hthree⟩ := Prod.mk.inj (Option.some.inj hfires)
    rw [hown] at hreceived
    refine ⟨contact, s₁, reports, s', hreceived, ?_, ?_, hcall, hthree⟩
    · cases hreceived with
      | made absent newcomer kept => exact newcomer.tagged _ rfl
    · cases hreceived with
      | made absent newcomer kept =>
        obtain ⟨given, hgiven, -⟩ | ⟨-, hname⟩ := newcomer.named
        · cases hgiven
        · exact hname
  · cases hfires

end Intake
end Outreach
