import Outreach.Proofs.Database.Automations
import Outreach.Proofs.Engine.Firing
import Outreach.Proofs.Engine.Termination

/-! What the firing of an event comes to in a store: nothing at all when contact, connection or automations are missing,
and otherwise one run of each automation that it starts, whatever fails on the way. -/
namespace Outreach
open Program

structure Scope.Ready (scope : Scope) (db : Database) (contactId : Int) (contact : Contact) (connection : Connection)
    (automations : List Automation) : Prop where
  known : db.contact? contactId = .ok (some contact)
  reachable : contact.isOptedOut = false
  connected : scope.connection? = some connection ∨
    scope.connection? = none ∧ db.firstConnection contact.userId = .ok (some connection)
  listed : db.listAutomations (scope.audience contact) = .ok automations

namespace Service
variable {around : Surroundings} {σ : Type} {view : σ → Service} {h : Handler σ} {t t' : σ} {l : List Exchange}

/-- The storage answers as the service does that is seen in its state, or fails without effect. -/
def Serves (around : Surroundings) (view : σ → Service) (h : Handler σ) : Prop :=
  ∀ r t, Answers around r (view t) (h r t).1 (view (h r t).2) ∨ r.IsFault (h r t).1 ∧ view (h r t).2 = view t

theorem serves_answer (around : Surroundings) : Serves around id (answer around) := fun r s =>
  .inl (answers_answer around r s)

def Same (s s' : Service) : Prop := s'.db = s.db ∧ s'.forwarded = s.forwarded

theorem Same.refl (s : Service) : s.Same s := ⟨rfl, rfl⟩

theorem Same.trans {s₁ s₂ s₃ : Service} (h : s₁.Same s₂) (h' : s₂.Same s₃) : s₁.Same s₃ :=
  ⟨h'.1.trans h.1, h'.2.trans h.2⟩

theorem Answers.lookup {r : Request} {s s' : Service} {x : r.Reply} (h : Answers around r s x s') (hr : r.IsLookup) :
    x = (answer around r s).1 ∧ s.Same s' := by
  obtain ⟨clock, network, seed, h⟩ := h
  cases r <;> first | exact hr.elim | (cases h; exact ⟨rfl, rfl, rfl⟩)

theorem answer_lookup {r : Request} {s s' : Service} (hr : r.IsLookup) (h : s.Same s') :
    (answer around r s').1 = (answer around r s).1 := by
  cases r <;> first | exact hr.elim | simp only [answer, h.1]

/-- Lookups change nothing, and tell what the store holds unless they fail. -/
theorem Serves.lookups (hserves : Serves around view h) (hanswered : Answered h t l t')
    (hl : ∀ e ∈ l, e.request.IsLookup) : (view t).Same (view t') ∧
      ∀ e ∈ l, e.reply = (answer around e.request (view t)).1 ∨ e.request.IsFault e.reply := by
  induction hanswered with
  | nil t => exact ⟨.refl _, List.forall_mem_nil _⟩
  | @cons r t t' l rest ih =>
    obtain ⟨hr, hl⟩ := List.forall_mem_cons.mp hl
    have hone : ((h r t).1 = (answer around r (view t)).1 ∨ r.IsFault (h r t).1) ∧ (view t).Same (view (h r t).2) := by
      obtain hanswers | ⟨hfault, hsame⟩ := hserves r t
      · obtain ⟨hreply, hsame⟩ := hanswers.lookup hr
        exact ⟨.inl hreply, hsame⟩
      · exact ⟨.inr hfault, hsame ▸ .refl _⟩
    obtain ⟨hsame, hreplies⟩ := ih hl
    refine ⟨hone.2.trans hsame, List.forall_mem_cons.mpr ⟨hone.1, fun e he => ?_⟩⟩
    exact (hreplies e he).imp_left fun hreply => hreply.trans (answer_lookup (hl e he) hone.2)

end Service

open Service
variable {around : Surroundings} {contactId : Int} {scope : Scope} {loading : List Exchange} {s : Service}
  {contact : Contact} {connection : Connection} {automations : List Automation}

theorem eq_ok_of_served {α : Type} {a : α} {x : Except RepositoryError α}
    (h : Except.ok a = x ∨ ∃ e : RepositoryError, Except.ok a = Except.error e) : x = .ok a := by
  obtain hreply | ⟨e, hfault⟩ := h
  · exact hreply.symm
  · cases hfault

theorem Connects.connected {l : List Exchange} (h : Connects scope contact l connection)
    (hfound : ∀ e ∈ l, e.reply = (answer around e.request s).1 ∨ e.request.IsFault e.reply) :
    scope.connection? = some connection ∨
      scope.connection? = none ∧ s.db.firstConnection contact.userId = .ok (some connection) := by
  cases h with
  | given supplied => exact .inl supplied
  | first lacking => exact .inr ⟨lacking, eq_ok_of_served (hfound _ List.mem_cons_self)⟩

/-- When the runs can go on, the store has what they need. -/
theorem Loads.ready (h : Loads contactId scope loading (.ok (.go contact connection automations)))
    (hfound : ∀ e ∈ loading, e.reply = (answer around e.request s).1 ∨ e.request.IsFault e.reply) :
    scope.Ready s.db contactId contact connection automations := by
  cases h with
  | loaded reachable connects =>
    simp only [List.forall_mem_append, List.forall_mem_cons] at hfound
    obtain ⟨⟨hcontact, hconnects⟩, hlisted, -⟩ := hfound
    exact ⟨eq_ok_of_served hcontact, reachable, connects.connected hconnects, eq_ok_of_served hlisted⟩

theorem Loads.faultless (h : Loads contactId scope loading (.ok (.go contact connection automations))) :
    ∀ e ∈ loading, ¬ e.request.IsFault e.reply := by
  have hok {α : Type} (a : α) : ¬ ∃ e : RepositoryError, Except.ok a = Except.error e := by
    intro hfault
    obtain ⟨e, he⟩ := hfault
    cases he
  cases h with
  | loaded reachable connects =>
    refine List.forall_mem_append.mpr ⟨List.forall_mem_cons.mpr ⟨hok _, ?_⟩, List.forall_mem_singleton.mpr (hok _)⟩
    cases connects with
    | given => exact List.forall_mem_nil _
    | first => exact List.forall_mem_singleton.mpr (hok _)

/-- With what the runs need and no failure, they can go on. -/
theorem Loads.eq_go {y : Except FireError Load} (h : Loads contactId scope loading y)
    (hready : scope.Ready s.db contactId contact connection automations)
    (hfound : ∀ e ∈ loading, e.reply = (answer around e.request s).1) : y = .ok (.go contact connection automations) := by
  have hcontact {found : Except RepositoryError (Option Contact)} {rest : List Exchange}
      (hloading : loading = ⟨.getContact contactId, found⟩ :: rest) : found = .ok (some contact) := by
    have hreply : found = s.db.contact? contactId := hfound ⟨.getContact contactId, found⟩ (hloading ▸ List.mem_cons_self)
    exact hreply.trans hready.known
  have hconnected {found : Except RepositoryError (Option Connection)}
      (hmem : ⟨.firstConnection contact.userId, found⟩ ∈ loading) (lacking : scope.connection? = none) :
      found = .ok (some connection) := by
    have hreply : found = s.db.firstConnection contact.userId := hfound _ hmem
    obtain hsupplied | ⟨-, hfirst⟩ := hready.connected
    · cases lacking.symm.trans hsupplied
    · exact hreply.trans hfirst
  have hlisted {found : Except RepositoryError (List Automation)}
      (hmem : ⟨.listAutomations (scope.audience contact), found⟩ ∈ loading) : found = .ok automations := by
    have hreply : found = s.db.listAutomations (scope.audience contact) := hfound _ hmem
    exact hreply.trans hready.listed
  cases h with
  | contactFailed | contactMissing => cases hcontact rfl
  | optedOut out =>
    cases hcontact rfl
    cases out.symm.trans hready.reachable
  | connectionFailed reachable lacking | noConnection reachable lacking =>
    cases hcontact rfl
    cases hconnected (List.mem_cons_of_mem _ List.mem_cons_self) lacking
  | automationsFailed reachable connects =>
    cases hcontact rfl
    cases hlisted (List.mem_append_right _ List.mem_cons_self)
  | @loaded contact' l connection' reachable connects found =>
    cases hcontact rfl
    cases hlisted (List.mem_append_right _ List.mem_cons_self)
    cases connects with
    | given supplied =>
      obtain hsupplied | ⟨hlacking, -⟩ := hready.connected
      · cases supplied.symm.trans hsupplied
        rfl
      · cases supplied.symm.trans hlacking
    | first lacking =>
      cases hconnected (List.mem_cons_of_mem _ List.mem_cons_self) lacking
      rfl

section
variable {σ : Type} {h : Handler σ} {settings : EngineSettings} {limit : Nat} {context : Json}

theorem exists_loads (h : Handler σ) (contactId : Int) (scope : Scope) (t : σ) :
    ∃ loading y t', Loads contactId scope loading y ∧ Answered h t loading t' := by
  cases hcontact : (h (.getContact contactId) t).1 with
  | error e => exact ⟨_, _, _, .contactFailed e, answered_cons.mpr ⟨hcontact, .nil _⟩⟩
  | ok found =>
    cases found with
    | none => exact ⟨_, _, _, .contactMissing, answered_cons.mpr ⟨hcontact, .nil _⟩⟩
    | some contact =>
      cases hout : contact.isOptedOut with
      | true => exact ⟨_, _, _, .optedOut hout, answered_cons.mpr ⟨hcontact, .nil _⟩⟩
      | false =>
        have hlist {l : List Exchange} {connection : Connection} {t₁ : σ} (hconnects : Connects scope contact l connection)
            (hanswered : Answered h (h (.getContact contactId) t).2 l t₁) :
            ∃ loading y t', Loads contactId scope loading y ∧ Answered h t loading t' := by
          have hlast {found : Except RepositoryError (List Automation)}
              (hlisted : (h (.listAutomations (scope.audience contact)) t₁).1 = found) :=
            answered_append.mpr ⟨t₁, answered_cons.mpr ⟨hcontact, hanswered⟩, answered_cons.mpr ⟨hlisted, .nil _⟩⟩
          cases hlisted : (h (.listAutomations (scope.audience contact)) t₁).1 with
          | error e => exact ⟨_, _, _, .automationsFailed hout hconnects e, hlast hlisted⟩
          | ok automations => exact ⟨_, _, _, .loaded hout hconnects automations, hlast hlisted⟩
        cases hscope : scope.connection? with
        | some connection => exact hlist (.given hscope) (.nil _)
        | none =>
          cases hfirst : (h (.firstConnection contact.userId) (h (.getContact contactId) t).2).1 with
          | error e =>
            have hanswered := answered_cons.mpr ⟨hcontact, answered_cons.mpr ⟨hfirst, .nil _⟩⟩
            exact ⟨_, _, _, .connectionFailed hout hscope e, hanswered⟩
          | ok found =>
            cases found with
            | none =>
              have hanswered := answered_cons.mpr ⟨hcontact, answered_cons.mpr ⟨hfirst, .nil _⟩⟩
              exact ⟨_, _, _, .noConnection hout hscope, hanswered⟩
            | some connection => exact hlist (.first hscope) (answered_cons.mpr ⟨hfirst, .nil _⟩)

theorem exists_ranEach (hends : ∀ a ∈ automations, ∀ t, ∃ x t',
    (execute settings limit a contact context connection none).run.run h t = some (x, t')) (t : σ) :
    ∃ l attempts t', RanEach settings limit contact context connection automations l attempts ∧ Answered h t l t' := by
  induction automations generalizing t with
  | nil => exact ⟨[], [], t, .nil, .nil t⟩
  | cons a rest ih =>
    obtain ⟨ha, hrest⟩ := List.forall_mem_cons.mp hends
    obtain ⟨x, t₁, hrun⟩ := ha t
    obtain ⟨l, hruns⟩ := run_eq_some_iff.mp hrun
    obtain ⟨ls, attempts, t', hran, hanswered⟩ := ih hrest t₁
    exact ⟨_, _, t', .cons hruns.yields hran, answered_append.mpr ⟨t₁, hruns.answered, hanswered⟩⟩

end

structure DispatchReport.Accounts (report : DispatchReport) (started : List Automation)
    (attempts : List (Except RunError RunReport)) : Prop where
  unskipped : report.skipped = none
  matched : report.matched = started.map (·.id)
  runs : report.runs = attempts.filterMap Except.toOption
  failures : report.failures = (started.zipWith Automation.failure? attempts).reduceOption
  runs_ordered : (report.runs.map (·.automationId)).Sublist report.matched
  failures_ordered : (report.failures.map (·.1)).Sublist report.matched
  parted : (report.runs.map (·.automationId) ++ report.failures.map (·.1)).Perm report.matched

theorem RanEach.accounts {settings : EngineSettings} {limit : Nat} {context : Json} {l : List Exchange}
    {attempts : List (Except RunError RunReport)}
    (h : RanEach settings limit contact context connection automations l attempts) :
    (DispatchReport.noting ⟨automations.map (·.id), [], [], none⟩ automations attempts).Accounts automations attempts where
  unskipped := rfl
  matched := rfl
  runs := rfl
  failures := rfl
  runs_ordered := h.runs_sublist
  failures_ordered := h.failures_sublist
  parted := h.perm

/-- Where no id comes twice, each has a report or a failure, and not both. -/
theorem DispatchReport.Accounts.xor {report : DispatchReport} {started : List Automation}
    {attempts : List (Except RunError RunReport)} (h : report.Accounts started attempts) (hids : report.matched.Nodup) :
    ∀ id ∈ report.matched, Xor (id ∈ report.runs.map (·.automationId)) (id ∈ report.failures.map (·.1)) := by
  intro id hid
  have hdisjoint := List.disjoint_of_nodup_append (h.parted.nodup_iff.mpr hids)
  obtain hrun | hfailure := List.mem_append.mp (h.parted.mem_iff.mpr hid)
  · exact .inl ⟨hrun, fun hfailure => hdisjoint hrun hfailure⟩
  · exact .inr ⟨hfailure, fun hrun => hdisjoint hrun hfailure⟩

/-- Firing an event looks up the contact, the connection and the automations, and changes nothing by that. When one of
them is missing or cannot be looked up, that is all. Otherwise those automations are run once each, in order and whatever
became of those before, that the event starts, and each of them ends up with its report or its failure. -/
theorem fire_dispatches {around : Surroundings} {σ : Type} {view : σ → Service} {h : Handler σ}
    (hserves : Serves around view h) (settings : EngineSettings) (limit : Nat) (event : Event) (contactId : Int)
    (scope : Scope) (t : σ) :
    ∃ loading y t₁, Loads contactId scope loading y ∧ Answered h t loading t₁ ∧
      (∀ e ∈ loading, e.request.IsLookup) ∧ (view t).Same (view t₁) ∧
      ((¬ ∃ contact connection automations, scope.Ready (view t).db contactId contact connection automations) ∨
          (∃ e ∈ loading, e.request.IsFault e.reply) →
        ∃ x, Runs h (fire settings limit event contactId scope).run t loading x t₁ ∧
          ∀ report, x = .ok report → report.matched = [] ∧ report.runs = [] ∧ report.failures = []) ∧
      ∀ contact connection automations, scope.Ready (view t).db contactId contact connection automations →
        (∀ e ∈ loading, ¬ e.request.IsFault e.reply) →
        (∀ a ∈ automations, a.Starts event contact → ∀ t, ∃ x t',
          (execute settings limit a contact (event.context contactId) connection none).run.run h t = some (x, t')) →
        ∃ rest attempts report t',
          Runs h (fire settings limit event contactId scope).run t (loading ++ rest) (.ok report) t' ∧
          RanEach settings limit contact (event.context contactId) connection
            (automations.filter (·.Starts event contact)) rest attempts ∧
          report.Accounts (automations.filter (·.Starts event contact)) attempts ∧
          ((view t).db.Identified → ∀ id ∈ report.matched,
            Xor (id ∈ report.runs.map (·.automationId)) (id ∈ report.failures.map (·.1))) := by
  obtain ⟨loading, y, t₁, hloads, hanswered⟩ := exists_loads h contactId scope t
  obtain ⟨hsame, hfound⟩ := hserves.lookups hanswered hloads.lookups
  refine ⟨loading, y, t₁, hloads, hanswered, hloads.lookups, hsame, fun hindered => ?_, ?_⟩
  -- Where something is missing or has failed, the lookups do not lead to runs.
  · have hstops : ∀ contact connection automations, y ≠ .ok (.go contact connection automations) := by
      intro contact connection automations hgo
      subst hgo
      obtain hmissing | ⟨e, he, hfault⟩ := hindered
      · exact hmissing ⟨contact, connection, automations, hloads.ready hfound⟩
      · exact hloads.faultless e he hfault
    cases y with
    | error e => exact ⟨_, ⟨fire_yields_iff.mpr (.failed hloads), hanswered⟩, fun _ hreport => (by cases hreport)⟩
    | ok found =>
      cases found with
      | skip reason =>
        refine ⟨_, ⟨fire_yields_iff.mpr (.skipped hloads), hanswered⟩, fun _ hreport => ?_⟩
        cases hreport
        exact ⟨rfl, rfl, rfl⟩
      | go contact connection automations => exact absurd rfl (hstops contact connection automations)
  · intro contact connection automations hready hfaultless hends
    have hreplies : ∀ e ∈ loading, e.reply = (answer around e.request (view t)).1 := fun e he =>
      (hfound e he).resolve_right (hfaultless e he)
    obtain rfl := hloads.eq_go hready hreplies
    obtain ⟨rest, attempts, t', hran, hrest⟩ := exists_ranEach (fun a ha => by
      obtain ⟨ha, hstarts⟩ := List.mem_filter.mp ha
      exact hends a ha (of_decide_eq_true hstarts)) t₁
    refine ⟨rest, attempts, _, t', ⟨?_, answered_append.mpr ⟨t₁, hanswered, hrest⟩⟩, hran, hran.accounts, fun hdb => ?_⟩
    · rw [← selectAutomations_eq] at hran ⊢
      exact fire_yields_iff.mpr (.ran hloads hran)
    · apply hran.accounts.xor
      exact (hdb.nodup hready.listed).sublist (List.filter_sublist.map _)

def greeting (n : Nat) (user : Uuid) : Automation :=
  ⟨.numbered n, user, "greeting", .active, [⟨"t", .trigger .contactCreated, none⟩], [], ⟨1717408800, 0⟩, true, false, []⟩

def greeted : Service :=
  { Service.holding (.trial (greeting 1 default) 0) with
    db := { (Service.holding (.trial (greeting 1 default) 0)).db with
      automations := [.ofAutomation (greeting 1 default), .ofAutomation (greeting 2 (.numbered 3))] } }

def forgetful : Handler Service
  | .mergeStats _ _, s => (.error .connection, s)
  | r, s => answer .offline r s

theorem serves_forgetful : Serves .offline id forgetful := by
  intro r s
  cases r with
  | mergeStats id delta => exact .inr ⟨⟨_, rfl⟩, rfl⟩
  | _ => exact .inl (answers_answer .offline _ s)

/-- An automation without edges ends behind its trigger. -/
theorem execute_ends_of_edges {settings : EngineSettings} {limit : Nat} {a : Automation} {context : Json}
    (hedges : a.edges = []) (hids : (a.nodes.map (·.id)).Nodup) (hlimit : a.nodes.length ≤ limit) :
    (execute settings limit a contact context connection none).Ends := by
  have hcycles : a.CyclesWait := by
    apply Automation.cyclesWait_of_rank fun _ => 0
    intro n _ v hv
    obtain ⟨e, he, -⟩ := Routes.mem_successors_classify hv
    rw [hedges] at he
    cases he
  apply RunFrame.run_ends
  intro start hstart
  exact RunFrame.walk_ends hcycles limit (.single (RunFrame.node?_start hids hstart)) ((Nat.zero_add limit).symm ▸ hlimit) []

theorem exists_ready : ∃ contact connection automations,
    Scope.contactOwner.Ready greeted.db 1 contact connection automations ∧
    ∀ a ∈ automations, a.edges = [] ∧ (a.nodes.map (·.id)).Nodup ∧ a.nodes.length ≤ 8 := by
  have hcontact : ((greeted.db.contact? 1).toOption.bind id).map (fun c => (c.userId, c.isOptedOut)) =
      some (default, false) := by
    decide
  have hconnection : ((greeted.db.firstConnection default).toOption.bind id).isSome = true := by decide +kernel
  have hautomations : (greeted.db.listAutomations (.user default)).toOption.map (·.all fun a =>
      a.edges.isEmpty && decide ((a.nodes.map (·.id)).Nodup ∧ a.nodes.length ≤ 8)) = some true := by
    decide +kernel
  obtain ⟨contact, hknown, howner⟩ := Option.map_eq_some_iff.mp hcontact
  obtain ⟨hown, hreachable⟩ := Prod.mk.inj howner
  obtain ⟨found, hfound, rfl⟩ := Option.bind_eq_some_iff.mp hknown
  obtain ⟨connection, hfirst⟩ := Option.isSome_iff_exists.mp hconnection
  obtain ⟨first, hfirst, rfl⟩ := Option.bind_eq_some_iff.mp hfirst
  obtain ⟨automations, hlisted, hall⟩ := Option.map_eq_some_iff.mp hautomations
  refine ⟨contact, connection, automations, ⟨eq_ok_of_toOption hfound, hreachable, .inr ⟨rfl, ?_⟩, ?_⟩, fun a ha => ?_⟩
  · exact hown ▸ eq_ok_of_toOption hfirst
  · exact (congrArg (fun user => greeted.db.listAutomations (.user user)) hown).trans (eq_ok_of_toOption hlisted)
  · simpa using List.all_eq_true.mp hall a ha

/-- Of the greetings the owner's is run, and noted as failed. -/
theorem fire_dispatches_greeted : ∃ loading rest report s,
    Runs forgetful (fire Surroundings.offline.settings 8 .contactCreated 1 .contactOwner).run greeted (loading ++ rest)
      (.ok report) s ∧ report.matched = [.numbered 1] ∧ report.runs = [] ∧
    report.failures = [(.numbered 1, (RunError.mk (.numbered 1) .connection).message)] := by
  have hseen : ((fire Surroundings.offline.settings 8 .contactCreated 1 .contactOwner).run.run forgetful greeted).map
      (fun x => x.1.toOption.map fun report => (report.matched, report.runs.length, report.failures)) =
      some (some ([.numbered 1], 0, [(.numbered 1, (RunError.mk (.numbered 1) .connection).message)])) := by
    decide +kernel
  obtain ⟨loading, y, t₁, -, -, -, -, hidle, hdispatches⟩ := fire_dispatches serves_forgetful
    Surroundings.offline.settings 8 .contactCreated 1 .contactOwner greeted
  have hfaultless : ∀ e ∈ loading, ¬ e.request.IsFault e.reply := by
    intro e he hfault
    obtain ⟨x, hruns, hnone⟩ := hidle (.inr ⟨e, he, hfault⟩)
    rw [run_eq_some_iff.mpr ⟨_, hruns⟩] at hseen
    cases x with
    | error e => cases hseen
    | ok report =>
      have hmatched := congrArg (fun x => x.map (·.map (·.1))) hseen
      simp [Except.toOption, (hnone report rfl).1] at hmatched
  obtain ⟨contact, connection, automations, hready, hplain⟩ := exists_ready
  obtain ⟨rest, attempts, report, s, hruns, -⟩ := hdispatches contact connection automations hready hfaultless
    fun a ha _ t => by
      obtain ⟨hedges, hids, hlength⟩ := hplain a ha
      obtain ⟨x, t', hrun, -⟩ := (execute_ends_of_edges hedges hids hlength).run forgetful t
      exact ⟨x, t', hrun⟩
  rw [run_eq_some_iff.mpr ⟨_, hruns⟩] at hseen
  obtain ⟨hmatched, hran, hfailed⟩ : report.matched = [.numbered 1] ∧ report.runs = [] ∧ report.failures = [_] := by
    simpa [Except.toOption] using hseen
  exact ⟨loading, rest, report, s, hruns, hmatched, hran, hfailed⟩

end Outreach
