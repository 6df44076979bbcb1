import Outreach.Proofs.Database.Frames
import Outreach.Proofs.Engine.Contexts
import Outreach.Proofs.Engine.Firing
import Outreach.Proofs.Service.Plays
import Outreach.Proofs.Service.Scene

/-! How far work reaches. An event that is fired, with all runs that are forwarded from it and in any order of their steps,
changes the row of its contact and no other; a sweep changes the tasks that it claims and the rows of their contacts. What
else is written are new tasks for these contacts and counters of the automations that are run. -/
namespace Outreach
open Service

namespace Remit

def Tells (remit : Remit) : (r : Request) → r.Reply → Prop
  | .getContact id, x => ∀ c, x = .ok (some c) → c.id = id ∧ remit.owner id = some c.userId
  | _, _ => True

def terms (remit : Remit) (told : List Exchange) : Terms where
  asks := remit.Allows
  answers r x := ⟨r, x⟩ ∈ told ∧ remit.Tells r x

def Forwarded (told : List Exchange) (id : Uuid) : Prop := ∃ run, ⟨.spawn run, ()⟩ ∈ told ∧ run.automation.id = id

/-- An event is about one contact, and settles no tasks; it runs what it starts of the automations that are listed for it,
and what these forward to. -/
def ofEvent (db : Database) (event : Event) (contactId : Int) (scope : Scope) (told : List Exchange) : Remit where
  contact id := id = contactId
  owner := db.owner?
  claim _ := False
  task _ := False
  automation id := Forwarded told id ∨
    ∃ contact automations a, ⟨.getContact contactId, .ok (some contact)⟩ ∈ told ∧
      ⟨.listAutomations (scope.audience contact), .ok automations⟩ ∈ told ∧ a ∈ automations ∧ a.Starts event contact ∧
      a.id = id

def Resumed (told : List Exchange) (t : ScheduledTask) : Prop :=
  (∃ now due, ⟨.dueTasks now, .ok due⟩ ∈ told ∧ t ∈ due) ∧ ⟨.claimTask t.id, .ok true⟩ ∈ told

/-- A sweep is about the contacts of the tasks that it wins, and settles tasks; it runs their automations, and what these
forward to. -/
def ofSweep (db : Database) (settles : Int → Prop) (told : List Exchange) : Remit where
  contact id := ∃ t, Resumed told t ∧ t.contactId = id
  owner := db.owner?
  claim _ := True
  task := settles
  automation id := Forwarded told id ∨
    ∃ t a, Resumed told t ∧ ⟨.getAutomation t.automationId, .ok (some a)⟩ ∈ told ∧ a.id = id

variable {remit : Remit} {told : List Exchange} {around : Surroundings} {settings : EngineSettings} {db : Database}

theorem needs {f : RunFrame} (hcontact : remit.contact f.contact.id)
    (howner : remit.owner f.contact.id = some f.contact.userId) (hautomation : remit.automation f.automation.id) :
    f.Needs settings (remit.terms told) where
  allows :=
    { outgoing := fun r hr => by cases r <;> first | exact trivial | exact hr.elim
      find := trivial
      update := fun _ _ => hcontact
      target := fun _ _ => trivial }
  insert _ _ _ := ⟨hcontact, howner⟩
  spawn _ _ _ _ _ := ⟨hcontact, howner⟩
  merge _ := hautomation

theorem forwarded_meets (limit : Nat) {run : ForwardedRun} (hasks : remit.Allows (.spawn run))
    (hautomation : remit.automation run.automation.id) :
    (run.execute settings limit).Meets (remit.terms told) fun _ => True :=
  Program.meets_bind (RunFrame.run_meets_of (needs hasks.1 hasks.2 hautomation) limit none) fun _ _ => trivial

structure Covers (remit : Remit) (db : Database) (told : List Exchange) : Prop where
  owner : remit.owner = db.owner?
  forwarded : ∀ id, Forwarded told id → remit.automation id
  won : ∀ id, remit.claim id → ⟨.claimTask id, .ok true⟩ ∈ told → remit.task id

theorem Covers.regime (h : remit.Covers db told) :
    Scene.Regime around (fun _ => True) told (remit.terms told) fun _ db' => remit.Frame db db' where
  forwards run hasks hanswers := by
    have hautomation := h.forwarded _ ⟨run, hanswers.1, rfl⟩
    exact Program.meets_bind (forwarded_meets around.limit hasks hautomation) fun _ _ => trivial
  answered := by
    intro l clock r x a b _ hasks htold hanswers hframe
    obtain ⟨network, seed, hanswer⟩ := hanswers
    have hstep := @answer_frame { around with network := network } { a with clock := clock, seed := seed } remit r hasks
      fun id hclaim he => h.won id hclaim (by rw [← he, hanswer]; exact htold)
    rw [hanswer] at hstep
    refine ⟨⟨htold, ?_⟩, hframe.trans hstep⟩
    cases r with
    | getContact id =>
      cases hanswer
      intro c hc
      have hfound := Database.owner?_of_found hc
      rwa [hframe.owner?, ← h.owner] at hfound
    | _ => exact trivial
  failed := by
    intro l r x db' _ htold hfault hframe
    refine ⟨⟨htold, ?_⟩, hframe⟩
    cases r with
    | getContact id =>
      obtain ⟨e, rfl⟩ := hfault
      exact fun c hc => by cases hc
    | _ => exact trivial

theorem event_meets (settings : EngineSettings) (limit : Nat) (db : Database) (event : Event) (contactId : Int)
    (scope : Scope) (told : List Exchange) : Attempt.Meets ((ofEvent db event contactId scope told).terms told)
      (fun _ => True) (fire settings limit event contactId scope) := by
  refine fire_meets_within settings limit trivial (fun _ => trivial) (fun _ _ => trivial)
    fun contact connection automations hcontact hlisted a ha => ?_
  obtain ⟨hid, howner⟩ := hcontact.2 contact rfl
  rw [selectAutomations_eq] at ha
  obtain ⟨ha, hstarts⟩ := List.mem_filter.mp ha
  have hautomation : (ofEvent db event contactId scope told).automation a.id :=
    Or.inr ⟨contact, automations, a, hcontact.1, hlisted.1, ha, of_decide_eq_true hstarts, rfl⟩
  exact RunFrame.run_meets_of (needs hid (hid ▸ howner) hautomation) limit none

/-- A sweep stays within its remit, in which it settles what it has won and what it failed to claim. -/
theorem sweep_meets (settings : EngineSettings) (limit : Nat) (db : Database) {settles : Int → Prop}
    {told : List Exchange} (hwon : ∀ id, ⟨.claimTask id, .ok true⟩ ∈ told → settles id)
    (hrefused : ∀ id e, ⟨.claimTask id, .error e⟩ ∈ told → settles id) :
    Attempt.Meets ((ofSweep db settles told).terms told) (fun _ => True) (sweep settings limit) := by
  refine sweep_meets_of settings limit trivial (fun _ => trivial) fun now due hlisted t ht => ?_
  refine ScheduledTask.settle_meets_of settings limit trivial (fun hclaimed => ?_)
    (fun hclaimed _ _ => hwon _ hclaimed.1) fun e hrefuses _ _ => hrefused _ e hrefuses.1
  have hresumed : Resumed told t := ⟨⟨now, due, hlisted.1, ht⟩, hclaimed.1⟩
  refine ScheduledTask.resume_meets_within settings limit trivial trivial trivial
    fun automation contact connection hautomation hcontact => ?_
  obtain ⟨hid, howner⟩ := hcontact.2 contact rfl
  have hruns : (ofSweep db settles told).automation automation.id := Or.inr ⟨t, automation, hresumed, hautomation.1, rfl⟩
  exact needs ⟨t, hresumed, hid.symm⟩ (hid ▸ howner) hruns

theorem covers_event (db : Database) (event : Event) (contactId : Int) (scope : Scope) (told : List Exchange) :
    (ofEvent db event contactId scope told).Covers db told :=
  ⟨rfl, fun _ => .inl, fun _ hclaim _ => hclaim.elim⟩

theorem covers_sweep (db : Database) {settles : Int → Prop} {told : List Exchange}
    (hwon : ∀ id, ⟨.claimTask id, .ok true⟩ ∈ told → settles id) : (ofSweep db settles told).Covers db told :=
  ⟨rfl, fun _ => .inl, fun id _ => hwon id⟩

end Remit

namespace Scene
variable {around : Surroundings} {service : Service} {moves : List Move}

/-- Work that keeps to a remit changes no more than the remit covers, whatever moves are made once it has begun. -/
theorem frame_of_meets {o : Occasion} {remit : Remit} {told : List Exchange} (hwaits : service.forwarded = [])
    (hmoves : ∀ o, .begin o ∉ moves) (hcovers : remit.Covers service.db told)
    (ho : (o.program around).Meets (remit.terms told) fun _ => True)
    (htold : ((of around service o).play around moves).log ⊆ told) :
    remit.Frame service.db ((of around service o).play around moves).service.db :=
  ((keeps_of hwaits ho (.refl _)).play hcovers.regime (Move.suits_of_ne_begin hmoves) htold).stored

/-- Whatever order the steps are in of an event and of the runs that it leads to, or of a sweep and its runs, and whatever
requests fail, no more changes than what the one contact or the tasks that were claimed have to do with. A sweep settles
what it has won, and a task that it failed to claim; without such a failure it settles what it has won and nothing else. -/
theorem frame_play (hwaits : service.forwarded = []) (hmoves : ∀ o, .begin o ∉ moves) :
    (∀ event contactId scope s, s = (of around service (.event event contactId scope)).play around moves →
      (Remit.ofEvent service.db event contactId scope s.log).Frame service.db s.service.db) ∧
    ∀ s, s = (of around service .sweep).play around moves →
      (Remit.ofSweep service.db (fun id => ⟨.claimTask id, .ok true⟩ ∈ s.log ∨ ∃ e, ⟨.claimTask id, .error e⟩ ∈ s.log)
        s.log).Frame service.db s.service.db ∧
      ((∀ id e, ⟨.claimTask id, .error e⟩ ∉ s.log) →
        (Remit.ofSweep service.db (fun id => ⟨.claimTask id, .ok true⟩ ∈ s.log) s.log).Frame service.db s.service.db) := by
  constructor
  · rintro event contactId scope s rfl
    refine frame_of_meets hwaits hmoves (Remit.covers_event _ _ _ _ _) ?_ (List.Subset.refl _)
    exact Program.meets_bind (Remit.event_meets _ _ _ _ _ _ _) fun _ _ => trivial
  · rintro s rfl
    constructor
    · refine frame_of_meets hwaits hmoves (Remit.covers_sweep _ fun _ => .inl) ?_ (List.Subset.refl _)
      exact Program.meets_bind (Remit.sweep_meets _ _ _ (fun _ => .inl) fun _ e he => .inr ⟨e, he⟩) fun _ _ => trivial
    · intro hfaultless
      refine frame_of_meets hwaits hmoves (Remit.covers_sweep _ fun _ => id) ?_ (List.Subset.refl _)
      exact Program.meets_bind (Remit.sweep_meets _ _ _ (fun _ => id) fun id e he => absurd he (hfaultless id e))
        fun _ _ => trivial

def tagging : Automation :=
  ⟨default, default, "tag", .active,
    [⟨"t", .trigger .contactCreated, none⟩, ⟨"a", .action (.addTag "new"), none⟩, ⟨"w", .action (.wait 1 .days), none⟩],
    [⟨none, "t", "a", none⟩, ⟨none, "a", "w", none⟩, ⟨none, "w", "a", none⟩], ⟨1717408800, 0⟩, true, false, []⟩

def tagged : Service :=
  let morning : Instant := ⟨1717408800, 0⟩
  let contact := (RunFrame.trial tagging 0).contact
  .new { (Service.holding (.trial tagging 0)).db with
    contacts := [.ofContact contact, .ofContact { contact with id := 2, phone := "5581999900002" }]
    tasks := [.ofNew 1 morning ⟨default, 1, default, default, "a", morning, .obj []⟩]
    lastTaskId := 1 } morning 0

def claims (log : List Exchange) : List (Int × Option Bool) := log.filterMap fun
  | ⟨.claimTask id, won⟩ => some (id, won.toOption)
  | _ => none

theorem mem_claims {log : List Exchange} {id : Int} {won : (Request.claimTask id).Reply}
    (h : ⟨.claimTask id, won⟩ ∈ log) : (id, Except.toOption won) ∈ claims log :=
  List.mem_filterMap.mpr ⟨_, h, rfl⟩

def answered : List Move := .replicate 12 (.answer 0 ⟨1717408800, 0⟩ .unreachable 0)

def marks (s : Scene) : List (Int × String) × List (Int × String) :=
  (s.service.db.contacts.map fun c => (c.id, c.tags), s.service.db.tasks.map fun t => (t.contactId, t.status))

/-- The contact of the event is tagged and waits once more; the sweep wins the task, and its contact is tagged and waits. -/
theorem frame_play_tagged : (∃ s, s = (of .offline tagged (.event .contactCreated 1 .contactOwner)).play .offline answered ∧
      s.marks = ([(1, "[\"new\"]"), (2, "[]")], [(1, "pending"), (1, "pending")]) ∧
      (Remit.ofEvent tagged.db .contactCreated 1 .contactOwner s.log).Frame tagged.db s.service.db) ∧
    ∃ s, s = (of .offline tagged .sweep).play .offline answered ∧ claims s.log = [(1, some true)] ∧
      s.marks = ([(1, "[\"new\"]"), (2, "[]")], [(1, "processed"), (1, "pending")]) ∧
      (Remit.ofSweep tagged.db (fun id => ⟨.claimTask id, .ok true⟩ ∈ s.log) s.log).Frame tagged.db s.service.db := by
  have hmoves : ∀ o, .begin o ∉ answered := by simp [answered]
  obtain ⟨hevent, hsweep⟩ := @frame_play .offline tagged answered rfl hmoves
  refine ⟨⟨_, rfl, by decide +kernel, hevent _ _ _ _ rfl⟩, _, rfl, ?_⟩
  obtain ⟨hclaims, hmarks⟩ : claims ((of .offline tagged .sweep).play .offline answered).log = [(1, some true)] ∧
      ((of .offline tagged .sweep).play .offline answered).marks =
        ([(1, "[\"new\"]"), (2, "[]")], [(1, "processed"), (1, "pending")]) := by decide +kernel
  refine ⟨hclaims, hmarks, (hsweep _ rfl).2 fun id e he => ?_⟩
  have hclaim := hclaims ▸ mem_claims he
  simp [Except.toOption] at hclaim

end Scene
end Outreach
