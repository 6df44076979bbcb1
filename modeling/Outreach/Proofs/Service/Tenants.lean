import Outreach.Proofs.Database.Beside
import Outreach.Proofs.Service.Dispatch
import Outreach.Proofs.Service.Reach

/-! Users beside each other. What an event of a user's comes to depends on the user's own automations, and on those that
forward actions ask for by id, whoever they belong to. Other automations have no part in it and do not change. -/
namespace Outreach
open Service

def AutomationRow.Names (r : AutomationRow) (id : Uuid) : Prop :=
  ∃ nodes, Stored.document "nodes" (Decode.list Node.decode) r.nodes = .ok nodes ∧ ∃ n ∈ nodes, n.Names id

theorem AutomationRow.names_of_read {r : AutomationRow} {a : Automation} {id : Uuid} (hread : r.read = .ok a)
    (ha : a.Names id) : r.Names id :=
  ⟨a.nodes, (holds_of_read hread).nodes, ha⟩

/-- An automation of the user's forwards to that id, or one does that is reached so. -/
inductive Database.Reaches (db : Database) (user : Uuid) : Uuid → Prop where
  | own {r : AutomationRow} {id : Uuid} (stored : r ∈ db.automations) (owned : r.userId = user.text)
    (names : r.Names id) : Reaches db user id
  | onward {r : AutomationRow} {id id' : Uuid} (reached : Reaches db user id) (stored : r ∈ db.automations)
    (found : r.id = id.text) (names : r.Names id') : Reaches db user id'

def Asked (told : List Exchange) (id : Uuid) : Prop := ∃ x, ⟨.getAutomation id, x⟩ ∈ told

def Database.Owns (db : Database) (user id : Uuid) : Prop :=
  ∃ r ∈ db.automations, r.userId = user.text ∧ Uuid.parse? r.id = some id

def Scope.IsOf (user : Uuid) : Scope → Prop
  | .contactOwner => True
  | .user id _ => id = user
  | .allUsers _ => False

theorem Scope.IsOf.audience {user : Uuid} {scope : Scope} {c : Contact} (h : scope.IsOf user) (hc : c.userId = user) :
    scope.audience c = .user user := by
  cases scope with
  | contactOwner => exact congrArg Audience.user hc
  | user id connection => exact congrArg Audience.user h
  | allUsers connection => exact h.elim

namespace Tenancy
variable (db : Database) (user : Uuid) (contactId : Int) (told : List Exchange)

def Involves (id : Uuid) : Prop := db.Owns user id ∨ Asked told id

variable {db user told} in
/-- Where each automation has an id of its own, a row is of concern if it is the user's or was asked for. -/
theorem concerns_iff (hdb : db.Identified) {r : AutomationRow} (hr : r ∈ db.automations) :
    r.Concerns user (Involves db user told) ↔ r.userId = user.text ∨ ∃ id, Asked told id ∧ r.id = id.text := by
  refine or_congr_right' fun hstrange => exists_congr fun id => and_congr_left fun hid => or_iff_right ?_
  rintro ⟨r', hr', howned, hparsed⟩
  obtain ⟨id', hid'⟩ := hdb.written r' hr'
  rw [hid', Uuid.parse?_text] at hparsed
  have hsame : r'.id = r.id := by rw [hid', hid, Option.some.inj hparsed]
  exact hstrange (List.inj_on_of_nodup_map hdb.different hr' hr hsame ▸ howned)

def Asks : Request → Prop
  | .getAutomation id => db.Reaches user id
  | .spawn run => Involves db user told run.automation.id ∧ ∀ id, run.automation.Names id → db.Reaches user id
  | r => r.Within user (Involves db user told)

def Tells : (r : Request) → r.Reply → Prop
  | .getContact id, x => id = contactId → ∀ c, x = .ok (some c) → c.userId = user
  | .listAutomations _, x => ∀ automations, x = .ok automations → ∀ a ∈ automations,
      db.Owns user a.id ∧ ∀ id, a.Names id → db.Reaches user id
  | .getAutomation id, x => ∀ a, x = .ok (some a) → a.id = id ∧ ∀ id', a.Names id' → db.Reaches user id'
  | _, _ => True

def terms : Terms where
  asks := Asks db user told
  answers r x := ⟨r, x⟩ ∈ told ∧ Tells db user contactId r x

variable {db user contactId told} {around : Surroundings} {settings : EngineSettings}

theorem needs {f : RunFrame} (hinvolved : Involves db user told f.automation.id)
    (hnames : ∀ id, f.automation.Names id → db.Reaches user id) : f.Needs settings (terms db user contactId told) where
  allows :=
    { outgoing := fun r hr => by cases r <;> first | exact trivial | exact hr.elim
      find := trivial
      update := fun _ _ => trivial
      target := hnames }
  insert _ _ _ := hinvolved
  spawn id target _ hfound _ := by
    obtain ⟨hid, hreached⟩ := hfound.2 target rfl
    exact ⟨.inr ⟨_, hid ▸ hfound.1⟩, hreached⟩
  merge _ := hinvolved

theorem event_meets (settings : EngineSettings) (limit : Nat) (event : Event) {scope : Scope} (hscope : scope.IsOf user) :
    Attempt.Meets (terms db user contactId told) (fun _ => True) (fire settings limit event contactId scope) := by
  refine fire_meets_within settings limit trivial (fun _ => trivial) (fun contact hcontact => ?_)
    fun contact connection automations _ hlisted a ha => ?_
  · exact hscope.audience (hcontact.2 rfl contact rfl)
  · obtain ⟨howned, hreached⟩ := hlisted.2 automations rfl a (List.mem_filter.mp (selectAutomations_eq .. ▸ ha)).1
    exact RunFrame.run_meets_of (needs (.inl howned) hreached) limit none

theorem forwarded_meets (limit : Nat) {run : ForwardedRun} (h : Asks db user told (.spawn run)) :
    (run.execute settings limit).Meets (terms db user contactId told) fun _ => True :=
  Program.meets_bind (RunFrame.run_meets_of (needs h.1 h.2) limit none) fun _ _ => trivial

variable {remit : Remit} {db' : Database}

/-- Rows of automations are, but for the counters, the ones that were there to begin with. -/
theorem exists_row (h : remit.Frame db db') {r : AutomationRow} (hr : r ∈ db'.automations) :
    ∃ r₀ ∈ db.automations, r.id = r₀.id ∧ r.userId = r₀.userId ∧ r.nodes = r₀.nodes := by
  obtain ⟨r₀, hr₀, hsame⟩ := h.automations.exists_of_mem hr
  refine ⟨r₀, hr₀, ?_⟩
  obtain rfl | ⟨-, hsame⟩ := hsame
  · exact ⟨rfl, rfl, rfl⟩
  · rw [hsame]
    exact ⟨rfl, rfl, rfl⟩

/-- What is listed for the user are the user's automations. -/
theorem listed_tells (h : remit.Frame db db') {automations : List Automation}
    (hlist : db'.listAutomations (.user user) = .ok automations) :
    ∀ a ∈ automations, db.Owns user a.id ∧ ∀ id, a.Names id → db.Reaches user id := by
  intro a ha
  obtain ⟨r, hr, howned, hread⟩ := Database.exists_own_row hlist ha
  obtain ⟨r₀, hr₀, hid, huser, hnodes⟩ := exists_row h hr
  have howned₀ : r₀.userId = user.text := huser ▸ howned
  refine ⟨⟨r₀, hr₀, howned₀, ?_⟩, fun id hname => ?_⟩
  · exact hid ▸ Stored.parse?_of_uuid (AutomationRow.holds_of_read hread).id
  · have hnames := AutomationRow.names_of_read hread hname
    rw [AutomationRow.Names, hnodes] at hnames
    exact .own hr₀ howned₀ hnames

/-- What is found under an id that can be reached has that id, and leads to what can be reached. -/
theorem found_tells (h : remit.Frame db db') {id : Uuid} (hid : db.Reaches user id) {a : Automation}
    (hfound : db'.automation? id = .ok (some a)) : a.id = id ∧ ∀ id', a.Names id' → db.Reaches user id' := by
  obtain ⟨r, hfind, hread⟩ := Database.automation?_eq_some.mp hfound
  have htext : r.id = id.text := by simpa using List.find?_some hfind
  constructor
  · have hparsed := Stored.parse?_of_uuid (AutomationRow.holds_of_read hread).id
    rw [htext, Uuid.parse?_text] at hparsed
    exact (Option.some.inj hparsed).symm
  · intro id' hname
    obtain ⟨r₀, hr₀, hid₀, -, hnodes⟩ := exists_row h (List.mem_of_find?_eq_some hfind)
    have hnames := AutomationRow.names_of_read hread hname
    rw [AutomationRow.Names, hnodes] at hnames
    exact .onward hid hr₀ (hid₀ ▸ htext) hnames

/-- While no more changes than what the remit covers, requests are answered as they are to be told. -/
theorem regime (hcovers : remit.Covers db told) (hcontact : ∀ v, db.owner? contactId = some v → v = user) :
    Scene.Regime around (fun _ => True) told ((remit.terms told).and (terms db user contactId told))
      fun _ db' => remit.Frame db db' := by
  have hregime : Scene.Regime around (fun _ => True) told (remit.terms told) fun _ db' => remit.Frame db db' :=
    hcovers.regime
  constructor
  case forwards =>
    intro run hasks hanswers
    refine (hregime.forwards run hasks.1 hanswers.1).and ?_
    exact Program.meets_bind (forwarded_meets around.limit hasks.2) fun _ _ => trivial
  case answered =>
    intro l clock r x a b hera hasks htold hanswers hframe
    obtain ⟨htells, hframe'⟩ := hregime.answered (l := l) hera hasks.1 htold hanswers hframe
    refine ⟨⟨htells, htold, ?_⟩, hframe'⟩
    obtain ⟨network, seed, hanswer⟩ := hanswers
    cases r with
    | getContact id =>
      intro hid c hc
      have howner := (htells.2 c hc).2
      rw [hcovers.owner, hid] at howner
      exact hcontact _ howner
    | listAutomations audience =>
      obtain rfl : audience = .user user := hasks.2
      cases hanswer
      exact fun automations hlist => listed_tells hframe hlist
    | getAutomation id =>
      cases hanswer
      exact fun automation hfound => found_tells hframe hasks.2 hfound
    | _ => exact trivial
  case failed =>
    intro l r x db' hasks htold hfault hframe
    obtain ⟨htells, hframe'⟩ := hregime.failed (l := l) hasks.1 htold hfault hframe
    refine ⟨⟨htells, htold, ?_⟩, hframe'⟩
    cases r with
    | getContact id | listAutomations audience | getAutomation id =>
      obtain ⟨e, rfl⟩ := hfault
      simp [Tells]
    | _ => exact trivial

/-- What is asked for and is part of what is told is about what is involved. -/
theorem Asks.within {e : Exchange} (h : Asks db user told e.request) (htold : e ∈ told) :
    e.request.Within user (Involves db user told) := by
  obtain ⟨r, x⟩ := e
  cases r with
  | getAutomation id => exact .inr ⟨x, htold⟩
  | spawn run => exact h.1
  | _ => exact h

end Tenancy

namespace Scene
variable {around : Surroundings} {s : Scene} {user : Uuid} {ids : Uuid → Prop} {rows : List AutomationRow}

def withAutomations (s : Scene) (rows : List AutomationRow) : Scene :=
  { s with service := s.service.withAutomations rows }

/-- Scenes that differ in automations of no concern differ in nothing else after a move that has to do with none of them. -/
theorem move_withAutomations {m : Move} (hwithin : ∀ e ∈ (s.move around m).log, e.request.Within user ids)
    (h : Beside (AutomationRow.Concerns user ids) s.service.db.automations rows) :
    ∃ rows', Beside (AutomationRow.Concerns user ids) (s.move around m).service.db.automations rows' ∧
      (s.withAutomations rows).move around m = (s.move around m).withAutomations rows' := by
  cases m with
  | begin o => exact ⟨rows, h, rfl⟩
  | forward i =>
    simp only [move, withAutomations, Service.withAutomations]
    cases s.service.forwarded[i]? <;> exact ⟨rows, h, rfl⟩
  | answer i clock network seed =>
    cases hrunning : s.running[i]? with
    | none =>
      simp only [move, withAutomations, hrunning]
      exact ⟨rows, h, rfl⟩
    | some p =>
      cases p with
      | ask r next =>
        obtain ⟨⟨x, service⟩, hx⟩ : ∃ y, answer { around with network := network } r
          { s.service with clock := clock, seed := seed } = y := ⟨_, rfl⟩
        rw [move_answer hrunning clock network seed hx] at hwithin ⊢
        obtain ⟨rows', hbeside, hanswer⟩ := @answer_withAutomations { around with network := network }
          { s.service with clock := clock, seed := seed } user ids rows r
          (hwithin ⟨r, x⟩ (List.mem_append_right _ List.mem_cons_self)) h
        rw [hx] at hbeside hanswer
        have hmove := move_answer (s := s.withAutomations rows) hrunning clock network seed hanswer
        exact ⟨rows', hbeside, hmove⟩
      | _ =>
        simp only [move, withAutomations, hrunning]
        exact ⟨rows, h, rfl⟩
  | fail i fault =>
    simp only [move, withAutomations, Service.withAutomations]
    cases s.running[i]? with
    | none => exact ⟨rows, h, rfl⟩
    | some p =>
      cases p with
      | ask r next => cases hfault : fault r <;> simp only [hfault] <;> exact ⟨rows, h, rfl⟩
      | _ => exact ⟨rows, h, rfl⟩

theorem play_withAutomations {moves : List Move}
    (hwithin : ∀ e ∈ (s.play around moves).log, e.request.Within user ids)
    (h : Beside (AutomationRow.Concerns user ids) s.service.db.automations rows) :
    ∃ rows', Beside (AutomationRow.Concerns user ids) (s.play around moves).service.db.automations rows' ∧
      (s.withAutomations rows).play around moves = (s.play around moves).withAutomations rows' := by
  induction moves generalizing s rows with
  | nil => exact ⟨rows, h, rfl⟩
  | cons m moves ih =>
    have hlog : (s.move around m).log <+: ((s.move around m).play around moves).log := log_grows_play _ moves
    obtain ⟨rows', hbeside, hmove⟩ := move_withAutomations (m := m) (fun e he => hwithin e (hlog.subset he)) h
    obtain ⟨rows'', hbeside', hplay⟩ := ih hwithin hbeside
    exact ⟨rows'', hbeside', (congrArg (play around · moves) hmove).trans hplay⟩

/-- An event that is fired for a contact of the user, in whatever order its steps and those of the forwarded runs are
taken. All that it asks for by id can be reached from the user's automations, and all else that it has to do with are these
themselves. The rows of others do not change, and if they are other ones from the outset, everything else comes out the
same. -/
theorem play_beside {service : Service} {moves : List Move} {event : Event} {contactId : Int} {scope : Scope}
    (hwaits : service.forwarded = []) (hmoves : ∀ o, .begin o ∉ moves) (hscope : scope.IsOf user)
    (hcontact : ∀ v, service.db.owner? contactId = some v → v = user)
    (hs : s = (of around service (.event event contactId scope)).play around moves) :
    (∀ id, Asked s.log id → service.db.Reaches user id) ∧
    (∀ e ∈ s.log, e.request.Within user (Tenancy.Involves service.db user s.log)) ∧
    Changed (AutomationRow.Concerns user (Tenancy.Involves service.db user s.log)) AutomationRow.SameBut
      service.db.automations s.service.db.automations ∧
    ∀ rows, Beside (AutomationRow.Concerns user (Tenancy.Involves service.db user s.log)) service.db.automations rows →
      ∃ rows', Beside (AutomationRow.Concerns user (Tenancy.Involves service.db user s.log))
          s.service.db.automations rows' ∧
        (of around (service.withAutomations rows) (.event event contactId scope)).play around moves =
          s.withAutomations rows' := by
  let remit := Remit.ofEvent service.db event contactId scope s.log
  have hremit : (Occasion.program around (.event event contactId scope)).Meets (remit.terms s.log) fun _ => True :=
    Program.meets_bind (Remit.event_meets _ _ _ _ _ _ _) fun _ _ => trivial
  have htenancy : (Occasion.program around (.event event contactId scope)).Meets
      (Tenancy.terms service.db user contactId s.log) fun _ => True :=
    Program.meets_bind (Tenancy.event_meets _ _ event hscope) fun _ _ => trivial
  -- Both bounds are kept together: the remit says what rows change, the tenancy whose automations are asked for.
  have hkeeps : s.Keeps ((remit.terms s.log).and (Tenancy.terms service.db user contactId s.log))
      fun _ db => remit.Frame service.db db := by
    have hregime : Regime around _ s.log _ _ :=
      Tenancy.regime (Remit.covers_event service.db event contactId scope s.log) hcontact
    have hplay := (keeps_of hwaits (hremit.and htenancy) (.refl _)).play hregime (Move.suits_of_ne_begin hmoves)
    rw [← hs] at hplay
    exact hplay (List.Subset.refl _)
  have hwithin : ∀ e ∈ s.log, e.request.Within user (Tenancy.Involves service.db user s.log) :=
    fun e he => (hkeeps.told e he).1.2.within he
  refine ⟨?_, hwithin, hkeeps.stored.automations.mono ?_, fun rows hrows => ?_⟩
  · rintro id ⟨x, hasked⟩
    exact (hkeeps.told _ hasked).1.2
  · rintro r ⟨id, hruns, hid⟩
    refine .inr ⟨id, ?_, hid⟩
    obtain ⟨run, hspawned, rfl⟩ | ⟨contact, automations, a, -, hlisted, ha, -, rfl⟩ := hruns
    · exact hwithin _ hspawned
    · exact .inl ((hkeeps.told _ hlisted).2.2.2 automations rfl a ha).1
  · subst hs
    exact play_withAutomations hwithin hrows

def relay : Automation :=
  ⟨.numbered 1, default, "relay", .active,
    [⟨"t", .trigger .contactCreated, none⟩, ⟨"f", .action (.forwardAutomation (Uuid.numbered 2).text), none⟩],
    [⟨none, "t", "f", none⟩], ⟨1717408800, 0⟩, true, false, []⟩

def relayed : Service :=
  (Service.holding (.trial relay 0)).withAutomations
    [.ofAutomation relay, .ofAutomation (greeting 2 (.numbered 3)), .ofAutomation (greeting 3 (.numbered 3))]

def relayedScene : Scene :=
  (of .offline relayed (.event .contactCreated 1 .contactOwner)).play .offline
    (.replicate 6 (.answer 0 ⟨1717408800, 0⟩ .unreachable 0) ++
      [.forward 0, .answer 1 ⟨1717408800, 0⟩ .unreachable 0])

theorem relayed_runs : relayedScene.log.filterMap (fun e => match e.request with
      | .getAutomation id => some id
      | _ => none) = [.numbered 2] ∧
    relayedScene.service.db.automations.map (·.executionStats) =
      [[("f", ⟨1, 1, 0⟩), ("t", ⟨1, 1, 0⟩)], [("t", ⟨1, 1, 0⟩)], []].map fun stats => (ExecutionStats.encode stats).text := by
  decide +kernel

/-- One of the other user's greetings is run and counted. -/
theorem play_counts_others : relayed.db.owner? 1 = some default ∧ (greeting 2 (.numbered 3)).userId ≠ default ∧
    relayed.db.automations[1]? = some (.ofAutomation (greeting 2 (.numbered 3))) ∧
    (relayedScene.service.db.automations.map (·.executionStats))[1]? ≠
      (relayed.db.automations.map (·.executionStats))[1]? := by
  refine ⟨by decide, by decide, rfl, ?_⟩
  rw [relayed_runs.2]
  decide

/-- The other greeting makes no difference. -/
theorem play_beside_relayed : ∃ rows',
    (of .offline (relayed.withAutomations [.ofAutomation relay, .ofAutomation (greeting 2 (.numbered 3))])
      (.event .contactCreated 1 .contactOwner)).play .offline
        (.replicate 6 (.answer 0 ⟨1717408800, 0⟩ .unreachable 0) ++
          [.forward 0, .answer 1 ⟨1717408800, 0⟩ .unreachable 0]) = relayedScene.withAutomations rows' := by
  have howner : relayed.db.owner? 1 = some default := by decide
  have hmoves : ∀ o, Move.begin o ∉ List.replicate 6 (.answer 0 ⟨1717408800, 0⟩ .unreachable 0) ++
      [.forward 0, .answer 1 ⟨1717408800, 0⟩ .unreachable 0] := by simp
  have hdb : relayed.db.Identified := by
    refine ⟨?_, by decide⟩
    simp only [relayed, Service.withAutomations, Database.withAutomations, List.forall_mem_cons]
    exact ⟨⟨_, rfl⟩, ⟨_, rfl⟩, ⟨_, rfl⟩, List.forall_mem_nil _⟩
  have hstrange : ¬ (AutomationRow.ofAutomation (greeting 3 (.numbered 3))).Concerns default
      (Tenancy.Involves relayed.db default relayedScene.log) := by
    rw [Tenancy.concerns_iff hdb (by simp [relayed, Service.withAutomations, Database.withAutomations])]
    rintro (howned | ⟨id, ⟨x, hasked⟩, hid⟩)
    · exact absurd (Uuid.text_inj.mp howned) (by decide)
    · have hmem : id ∈ [Uuid.numbered 2] := relayed_runs.1 ▸ List.mem_filterMap.mpr ⟨_, hasked, rfl⟩
      rw [List.mem_singleton.mp hmem] at hid
      exact absurd (Uuid.text_inj.mp hid) (by decide)
  obtain ⟨-, -, -, hbeside⟩ := @play_beside .offline relayedScene default relayed _ .contactCreated 1 .contactOwner rfl
    hmoves trivial (fun v hv => Option.some.inj (hv.symm.trans howner)) rfl
  exact (hbeside _ (.both _ (.both _ (.left hstrange .nil)))).imp fun rows' h => h.2

end Scene
end Outreach
