import Outreach.Proofs.Service.Trail
import Outreach.Proofs.Tasks.Listing

/-! What a sweep leaves behind, with the runs that are forwarded meanwhile in any order among it. Everything that is due is
settled, and nothing else; what is new is pending, and stored by the runs. -/
namespace Outreach
open Service Database

inductive Sprung (due : List ScheduledTask) (told : List Exchange) : RunFrame → Prop where
  | resumed {t : ScheduledTask} (listed : t ∈ due) {automation : Automation} {contact : Contact}
    (foundAutomation : ⟨.getAutomation t.automationId, .ok (some automation)⟩ ∈ told)
    (foundContact : ⟨.getContact t.contactId, .ok (some contact)⟩ ∈ told) (connection : Connection) :
    Sprung due told (t.frame automation contact connection)
  | forwarded {f : RunFrame} (parent : Sprung due told f) (target : Automation)
    (spawned : ⟨.spawn (f.forwardTo target), ()⟩ ∈ told) :
    Sprung due told ⟨target, f.contact, f.eventContext, f.connection, f.depth + 1⟩

def Terms.settling (base : Database) (due : List ScheduledTask) (told : List Exchange) : Terms where
  asks
    | .claimTask id | .updateTask id _ _ => ∃ t ∈ due, t.id = id
    | .insertTask t => ∃ f next u, Sprung due told f ∧ t = f.taskAt next u
    | .spawn run => ∃ f target, Sprung due told f ∧ run = f.forwardTo target
    | .mergeStats .. | .getConnection _ | .dueTasks _ => True
    | r => r.IsActing
  answers r x := ⟨r, x⟩ ∈ told ∧ base.Tells r x

section
variable {base : Database} {due : List ScheduledTask} {told : List Exchange} {around : Surroundings}

theorem Terms.settling_acting {r : Request} (h : r.IsActing) : (Terms.settling base due told).asks r := by
  cases r <;> first | exact h | exact h.elim

theorem Sprung.needs {f : RunFrame} (h : Sprung due told f) (settings : EngineSettings) :
    f.Needs settings (.settling base due told) where
  allows := Terms.allows_of_acting (fun _ => Terms.settling_acting) _ _
  insert next u _ := ⟨f, next, u, h, rfl⟩
  spawn _ target _ _ _ := ⟨f, target, h, rfl⟩
  merge _ := trivial

/-- Settling what is due keeps to these terms, with all runs that come of it. -/
theorem settleAll_meets (settings : EngineSettings) (limit : Nat) (s : SweepSummary) :
    (ScheduledTask.settleAll settings limit s due).Meets (.settling base due told) fun _ => True := by
  refine ScheduledTask.settleAll_meets settings limit (fun t ht => ?_) s
  refine ScheduledTask.settle_meets_of settings limit ⟨t, ht, rfl⟩ (fun _ => ?_) (fun _ _ _ => ⟨t, ht, rfl⟩)
    fun _ _ _ _ => ⟨t, ht, rfl⟩
  exact ScheduledTask.resume_meets_within settings limit trivial trivial trivial
    fun automation contact connection hautomation hcontact =>
      (Sprung.resumed ht hautomation.1 hcontact.1 connection).needs settings

theorem forwarded_meets_settling {run : ForwardedRun} (hasks : (Terms.settling base due told).asks (.spawn run))
    (hspawned : ⟨.spawn run, ()⟩ ∈ told) : (run.program around).Meets (.settling base due told) fun _ => True := by
  obtain ⟨f, target, hf, rfl⟩ := hasks
  refine Program.meets_bind (P := fun _ => True) (Program.meets_bind (P := fun _ => True) ?_ fun _ _ => trivial)
    fun _ _ => trivial
  refine Program.meets_mono (RunFrame.run_meets_of ?_ around.limit none) fun _ _ => trivial
  exact (Sprung.forwarded hf target hspawned).needs around.settings

end

structure Database.SameReferences (a b : Database) : Prop where
  automations : b.automations.map (·.id) = a.automations.map (·.id)
  contacts : b.contacts.map (·.id) = a.contacts.map (·.id)
  connections : b.connections.map (·.id) = a.connections.map (·.id)

theorem map_change {α β : Type} {f : α → β} {p : α → Bool} {g : α → α} (hg : ∀ a, f (g a) = f a) (rows : List α) :
    (change p g rows).2.map f = rows.map f := by
  rw [change, List.map_map]
  refine List.map_congr_left fun a _ => ?_
  rw [Function.comp_apply]
  split
  · exact hg a
  · rfl

theorem Database.SameReferences.refl (a : Database) : a.SameReferences a := ⟨rfl, rfl, rfl⟩

theorem Database.SameReferences.trans {a b c : Database} (h : a.SameReferences b) (h' : b.SameReferences c) :
    a.SameReferences c :=
  ⟨h'.automations.trans h.automations, h'.contacts.trans h.contacts, h'.connections.trans h.connections⟩

theorem mem_ids {α β : Type} {id : α → β} {rows : List α} {x : β} : (∃ row ∈ rows, id row = x) ↔ x ∈ rows.map id :=
  List.mem_map.symm

namespace Database.SameReferences
variable {a b : Database} (h : a.SameReferences b)
include h

theorem hasAutomation (id : Uuid) : b.HasAutomation id ↔ a.HasAutomation id := by
  rw [HasAutomation, mem_ids, h.automations, ← mem_ids, HasAutomation]

theorem hasContact (id : Int) : b.HasContact id ↔ a.HasContact id := by
  rw [HasContact, mem_ids, h.contacts, ← mem_ids, HasContact]

theorem hasConnection (id : Uuid) : b.HasConnection id ↔ a.HasConnection id := by
  rw [HasConnection, mem_ids, h.connections, ← mem_ids, HasConnection]

end Database.SameReferences

namespace Service
variable {around : Surroundings} {clock : Instant} {r : Request} {x : r.Reply} {a b : Service} {base : Database}
  {due : List ScheduledTask} {told : List Exchange}

/-- While tasks are settled, no automation, contact or connection comes or goes. -/
theorem answer_references (hr : (Terms.settling base due told).asks r) :
    a.db.SameReferences (answer around r a).2.db := by
  have hsame : a.db.SameReferences a.db := .refl _
  by_cases hwrites : r.Writes
  swap
  · rw [answer_db hwrites]
    exact hsame
  cases r with
  | updateContact id p =>
    rw [answer, writing]
    cases hdb : a.db.updateContact id p with
    | error e => exact hsame
    | ok db =>
      obtain ⟨g, rfl, hg⟩ := updateContact_eq hdb
      refine ⟨rfl, map_change (fun row => ?_) _, rfl⟩
      obtain ⟨c, heq | heq⟩ := hg row <;> rw [heq]
      rfl
  | mergeStats id delta =>
    rw [answer, writing]
    cases hdb : a.db.mergeStats id delta with
    | error e => exact hsame
    | ok db =>
      obtain ⟨text, rfl⟩ := mergeStats_eq hdb
      refine ⟨map_change (fun row => ?_) _, rfl, rfl⟩
      rfl
  | insertTask t =>
    simp only [answer, tick_fst, tick_db, insertTask]
    split
    · exact ⟨rfl, rfl, rfl⟩
    · rw [storing, tick_db]
      exact hsame
  | claimTask id => exact ⟨rfl, rfl, rfl⟩
  | updateTask id status error =>
    rw [answer, writing]
    cases hdb : a.db.updateTask id status error with
    | error e => exact hsame
    | ok db =>
      rw [updateTask_eq hdb]
      exact ⟨rfl, rfl, rfl⟩
  | _ => first | exact hr.elim | exact hwrites.elim

theorem AnswersAt.references (h : AnswersAt around clock r a x b) (hr : (Terms.settling base due told).asks r) :
    a.db.SameReferences b.db := by
  obtain ⟨network, seed, hanswer⟩ := h
  have hsame := @answer_references { around with network := network } r { a with clock := clock, seed := seed } base due
    told hr
  rwa [hanswer] at hsame

theorem isSome_of_mapM {α β ε : Type} {f : α → Except ε β} {o : Option α} {found : Option β} (h : o.mapM f = .ok found) :
    found.isSome = o.isSome := by
  cases o with
  | none =>
    cases h
    rfl
  | some row =>
    rw [Option.mapM_some] at h
    obtain ⟨y, -, rfl⟩ := map_eq_ok.mp h
    rfl

theorem AnswersAt.tells (h : AnswersAt around clock r a x b) : a.db.Tells r x := by
  obtain ⟨network, seed, hanswer⟩ := h
  cases r with
  | getAutomation id =>
    cases hanswer
    intro found hfound
    rw [isSome_of_mapM hfound, List.find?_isSome]
    simp [HasAutomation]
  | getContact id =>
    cases hanswer
    intro found hfound
    rw [isSome_of_mapM hfound, List.find?_isSome]
    simp [HasContact]
  | getConnection id =>
    cases hanswer
    intro found hfound
    rw [isSome_of_mapM hfound, List.find?_isSome]
    simp [HasConnection]
  | _ => trivial

theorem tells_of_fault (h : r.IsFault x) (db : Database) : db.Tells r x := by
  cases r with
  | getAutomation id | getContact id | getConnection id =>
    obtain ⟨e, rfl⟩ := h
    exact fun found hfound => by cases hfound
  | _ => trivial

end Service

theorem Database.SameReferences.tells {a b : Database} (h : a.SameReferences b) {r : Request} {x : r.Reply}
    (hx : b.Tells r x) : a.Tells r x := by
  cases r with
  | getAutomation id => exact fun found hfound => (hx found hfound).trans (h.hasAutomation id)
  | getContact id => exact fun found hfound => (hx found hfound).trans (h.hasContact id)
  | getConnection id => exact fun found hfound => (hx found hfound).trans (h.hasConnection id)
  | _ => trivial

def Exchange.Stores (e : Exchange) (row : TaskRow) : Prop :=
  ∃ t id now, e = ⟨.insertTask t, .ok id⟩ ∧ row = .ofNew id now t

namespace Service
variable {around : Surroundings} {clock : Instant} {r : Request} {x : r.Reply} {a b : Service}

/-- Unless an automation is deleted, each row becomes what the exchange makes of it, and new rows are stored in it. -/
theorem AnswersAt.tasks (h : AnswersAt around clock r a x b) (hr : ∀ id, r ≠ .deleteAutomation id) :
    a.db.lastTaskId ≤ b.db.lastTaskId ∧ ∃ new, b.db.tasks = a.db.tasks.map (Exchange.rewrite · ⟨r, x⟩) ++ new ∧
      ∀ row ∈ new, a.db.lastTaskId < row.id ∧ Exchange.Stores ⟨r, x⟩ row := by
  have hsame {r : Request} {x : r.Reply} {db : Database} (hdb : db.SameTasks a.db)
      (hrow : ∀ row, Exchange.rewrite row ⟨r, x⟩ = row) : a.db.lastTaskId ≤ db.lastTaskId ∧
      ∃ new, db.tasks = a.db.tasks.map (Exchange.rewrite · ⟨r, x⟩) ++ new ∧
        ∀ row ∈ new, a.db.lastTaskId < row.id ∧ Exchange.Stores ⟨r, x⟩ row := by
    refine ⟨hdb.2.ge, [], ?_, List.forall_mem_nil _⟩
    rw [hdb.1, List.map_congr_left fun row _ => hrow row, List.map_id', List.append_nil]
  by_cases hleaves : r.LeavesTasks
  · obtain ⟨network, seed, hanswer⟩ := h
    have hdb := @answer_same { around with network := network } { a with clock := clock, seed := seed } r hleaves
    rw [hanswer] at hdb
    refine hsame hdb fun row => Exchange.rewrite_of_not_about (Exchange.isAbout_of_not_claiming ?_ _)
    cases r <;> first | exact id | exact hleaves.elim
  · cases r with
    | insertTask t =>
      obtain ⟨rfl, hlast, now, htasks⟩ | ⟨e, rfl, hlast, htasks⟩ := Answers.insert ⟨clock, h⟩
      · refine ⟨by omega, [_], ?_, List.forall_mem_singleton.mpr ⟨?_, _, _, now, rfl, rfl⟩⟩
        · rw [htasks]
          simp [Exchange.rewrite]
        · simp [TaskRow.ofNew]
      · exact hsame ⟨htasks, hlast⟩ fun _ => rfl
    | claimTask id =>
      obtain rfl := Answers.claim ⟨clock, h⟩
      obtain ⟨network, seed, hanswer⟩ := h
      cases hanswer
      exact ⟨le_rfl, [], (List.append_nil _).symm, List.forall_mem_nil _⟩
    | updateTask id status error =>
      obtain ⟨network, seed, hanswer⟩ := h
      cases x with
      | error e =>
        obtain rfl := writing_eq_error hanswer
        exact hsame ⟨rfl, rfl⟩ fun _ => rfl
      | ok u =>
        obtain ⟨db, hdb, rfl⟩ := writing_eq_ok hanswer
        rw [updateTask_eq hdb]
        exact ⟨le_rfl, [], (List.append_nil _).symm, List.forall_mem_nil _⟩
    | deleteAutomation id => exact absurd rfl (hr id)
    | _ => exact absurd trivial hleaves

end Service

/-- The store after the exchanges: each row of `base` is what they have made of it, new rows were stored in them, and of
no pending task the first claim was lost. -/
structure Standing (base : Database) (l : List Exchange) (db : Database) : Prop where
  tasks : ∃ new, db.tasks = base.tasks.map (·.rewritten l) ++ new ∧
    ∀ row ∈ new, base.lastTaskId < row.id ∧ ∃ e ∈ l, e.Stores row
  last : base.lastTaskId ≤ db.lastTaskId
  references : base.SameReferences db
  claims : ∀ row ∈ base.tasks, isPending row = true →
    (l.filter (Exchange.isAbout row.id)).head? ≠ some ⟨.claimTask row.id, .ok false⟩

namespace Standing
variable {base a b : Database} {l : List Exchange} {e : Exchange}

theorem start (h : ∀ e ∈ l, ¬ e.request.IsClaiming) : Standing base l base where
  tasks := by
    refine ⟨[], ?_, List.forall_mem_nil _⟩
    rw [List.map_congr_left fun row _ => TaskRow.rewritten_of_not_claiming h row, List.map_id', List.append_nil]
  last := le_rfl
  references := .refl base
  claims row _ _ := by
    have hnone : l.filter (Exchange.isAbout row.id) = [] :=
      List.filter_eq_nil_iff.mpr fun e he => by simp [Exchange.isAbout_of_not_claiming (h e he) row.id]
    simp [hnone]

/-- A task that nothing was about has the row that it had. -/
theorem mem_of_none (h : Standing base l a) {row : TaskRow} (hrow : row ∈ base.tasks)
    (hnone : l.filter (Exchange.isAbout row.id) = []) : row ∈ a.tasks := by
  obtain ⟨new, htasks, -⟩ := h.tasks
  have hsame : row.rewritten l = row := by
    rw [← row.rewritten_filter l, hnone]
    rfl
  rw [htasks]
  exact List.mem_append_left _ (List.mem_map.mpr ⟨row, hrow, hsame⟩)

/-- One more exchange, about tasks of `base`, and without a claim that is lost though the task is pending. -/
theorem next (h : Standing base l a) (hreferences : a.SameReferences b) (hlast : a.lastTaskId ≤ b.lastTaskId)
    {more : List TaskRow} (htasks : b.tasks = a.tasks.map (Exchange.rewrite · e) ++ more)
    (hmore : ∀ row ∈ more, a.lastTaskId < row.id ∧ e.Stores row)
    (habout : ∀ id, e.isAbout id = true → id ≤ base.lastTaskId)
    (hclaim : ∀ row ∈ a.tasks, isPending row = true → e ≠ ⟨.claimTask row.id, .ok false⟩) : Standing base (l ++ [e]) b where
  tasks := by
    obtain ⟨new, hdb, hnew⟩ := h.tasks
    have hkept : new.map (Exchange.rewrite · e) = new := by
      refine (List.map_congr_left fun row hrow => Exchange.rewrite_of_not_about ?_).trans (List.map_id' new)
      refine Bool.eq_false_iff.mpr fun hid => ?_
      have := habout row.id hid
      have := (hnew row hrow).1
      omega
    refine ⟨new ++ more, ?_, List.forall_mem_append.mpr ⟨fun row hrow => ?_, fun row hrow => ?_⟩⟩
    · rw [htasks, hdb, List.map_append, hkept, List.map_map, List.append_assoc]
      refine congrArg (· ++ _) (List.map_congr_left fun row _ => ?_)
      rw [TaskRow.rewritten_append]
      rfl
    · obtain ⟨hid, e', he', hstores⟩ := hnew row hrow
      exact ⟨hid, e', List.mem_append_left _ he', hstores⟩
    · obtain ⟨hid, hstores⟩ := hmore row hrow
      have := h.last
      exact ⟨by omega, e, List.mem_append_right _ List.mem_cons_self, hstores⟩
  last := h.last.trans hlast
  references := h.references.trans hreferences
  claims row hrow hpending := by
    rw [List.filter_append, List.head?_append]
    -- The first exchange about the task was there before, or it is the one that was added.
    cases hbefore : l.filter (Exchange.isAbout row.id) with
    | cons first rest =>
      have hfirst := h.claims row hrow hpending
      rwa [hbefore] at hfirst
    | nil =>
      have hne := hclaim row (h.mem_of_none hrow hbefore) hpending
      cases he : e.isAbout row.id with
      | true => simpa [he] using hne
      | false => simp [he]

end Standing

section
variable {around : Surroundings} {base : Database} {due : List ScheduledTask} {told : List Exchange} {l : List Exchange}
  {r : Request} {x : r.Reply}

theorem Request.IsFault.rewrite (h : r.IsFault x) (row : TaskRow) : Exchange.rewrite row ⟨r, x⟩ = row := by
  cases r with
  | claimTask id | updateTask id status error =>
    obtain ⟨e, rfl⟩ := h
    rfl
  | _ => rfl

theorem le_of_isAbout (hdue : ∀ t ∈ due, t.id ≤ base.lastTaskId) (hr : (Terms.settling base due told).asks r) {id : Int}
    (hid : Exchange.isAbout id ⟨r, x⟩ = true) : id ≤ base.lastTaskId := by
  cases r with
  | claimTask i | updateTask i status error =>
    obtain ⟨t, ht, rfl⟩ := hr
    exact beq_iff_eq.mp hid ▸ hdue t ht
  | _ => cases hid

/-- Under these terms the store stands as told, answer after answer. -/
theorem settling_regime (hdue : ∀ t ∈ due, t.id ≤ base.lastTaskId) :
    Scene.Regime around (fun _ => True) told (.settling base due told) (Standing base) where
  forwards run hasks hanswers := forwarded_meets_settling hasks hanswers.1
  answered := by
    intro l clock r x a b _ hasks htold hanswers h
    refine ⟨⟨htold, h.references.tells hanswers.tells⟩, ?_⟩
    obtain ⟨hlast, more, htasks, hmore⟩ := hanswers.tasks fun id heq => by subst heq; exact hasks
    refine h.next (hanswers.references hasks) hlast htasks hmore (fun id => le_of_isAbout hdue hasks) ?_
    rintro row hrow hpending heq
    cases heq
    have hwon := Except.ok.inj (Answers.claim ⟨clock, hanswers⟩)
    exact Bool.false_ne_true (hwon.trans (List.any_eq_true.mpr ⟨row, hrow, by simp [hpending]⟩))
  failed := by
    intro l r x db hasks htold hfault h
    refine ⟨⟨htold, tells_of_fault hfault base⟩, ?_⟩
    have htasks : db.tasks = db.tasks.map (Exchange.rewrite · ⟨r, x⟩) ++ [] := by
      rw [List.map_congr_left fun row _ => hfault.rewrite row, List.map_id', List.append_nil]
    refine h.next (.refl db) le_rfl htasks (List.forall_mem_nil _) (fun id => le_of_isAbout hdue hasks) ?_
    rintro row - - heq
    cases heq
    obtain ⟨e, he⟩ := hfault
    cases he

end

def SweepPhase.upshot (around : Surroundings) (φ : SweepPhase) : Program Upshot := do
  return .swept (← φ.program around.settings around.limit)

theorem SweepPhase.upshot_eq_ask {around : Surroundings} {φ : SweepPhase} {r : Request}
    {next : r.Reply → SweepPhase × List SweepEvent} (h : φ.ask? around.settings around.limit = some ⟨r, next⟩) :
    φ.upshot around = .ask r fun x => (next x).1.upshot around := by
  rw [upshot, program_eq_ask h]
  rfl

/-- What neither writes nor forwards leaves the store alone, and what waits. -/
theorem Service.Answers.quiet {around : Surroundings} {r : Request} {x : r.Reply} {a b : Service}
    (h : Answers around r a x b) (hwrites : ¬ r.Writes) (hspawn : ∀ run, r ≠ .spawn run) :
    b.db = a.db ∧ b.forwarded = a.forwarded := by
  obtain ⟨clock, h⟩ := h
  refine ⟨?_, h.forwarded.resolve_right fun ⟨run, hrun, _⟩ => hspawn run hrun⟩
  obtain ⟨network, seed, hanswer⟩ := h
  have hdb := @answer_db { around with network := network } { a with clock := clock, seed := seed } r hwrites
  rwa [hanswer] at hdb

namespace Scene
variable {around : Surroundings} {s s' : Scene} {moves : List Move}

def Hears (around : Surroundings) (r : Request) (a : Service) (x : r.Reply) (b : Service) : Prop :=
  Answers around r a x b ∨ r.IsFault x ∧ b = a

theorem Hears.quiet {r : Request} {x : r.Reply} {a b : Service} (h : Hears around r a x b) (hwrites : ¬ r.Writes)
    (hspawn : ∀ run, r ≠ .spawn run) : b.db = a.db ∧ b.forwarded = a.forwarded := by
  obtain hanswers | ⟨-, rfl⟩ := h
  · exact hanswers.quiet hwrites hspawn
  · exact ⟨rfl, rfl⟩

/-- Where one program is under way alone, only it can be heard. -/
theorem Step.single {p : Program Upshot} {m : Move} (h : Step around s m s') (hrunning : s.running = [p])
    (hwaits : s.service.forwarded = []) (hm : ∀ o, m ≠ .begin o) : s' = s ∨ ∃ r next x service,
      p = .ask r next ∧ Hears around r s.service x service ∧ s' = ⟨service, [next x], s.log ++ [⟨r, x⟩]⟩ := by
  have honly {i : Nat} {q : Program Upshot} (hq : s.running[i]? = some q) : i = 0 ∧ p = q := by
    rw [hrunning] at hq
    cases i with
    | zero => exact ⟨rfl, Option.some.inj hq⟩
    | succ i => cases hq
  cases h with
  | stay => exact .inl rfl
  | begin o => exact absurd rfl (hm o)
  | forward waits =>
    rw [hwaits] at waits
    cases waits
  | answered asks answers =>
    obtain ⟨rfl, rfl⟩ := honly asks
    exact .inr ⟨_, _, _, _, rfl, .inl ⟨_, answers⟩, by rw [hrunning]; rfl⟩
  | failed asks fails =>
    obtain ⟨rfl, rfl⟩ := honly asks
    exact .inr ⟨_, _, _, _, rfl, .inr ⟨fails, rfl⟩, by rw [hrunning]; rfl⟩

/-- Any moves leave such a scene as it is, or begin with the one program being heard. -/
theorem play_single {p : Program Upshot} (hrunning : s.running = [p]) (hwaits : s.service.forwarded = [])
    (hmoves : ∀ o, .begin o ∉ moves) : s.play around moves = s ∨ ∃ r next x service later, p = .ask r next ∧
      Hears around r s.service x service ∧ (∀ o, .begin o ∉ later) ∧
      s.play around moves = play around ⟨service, [next x], s.log ++ [⟨r, x⟩]⟩ later := by
  induction moves with
  | nil => exact .inl rfl
  | cons m moves ih =>
    have hlater : ∀ o, .begin o ∉ moves := fun o ho => hmoves o (List.mem_cons_of_mem _ ho)
    have hfirst : ∀ o, m ≠ .begin o := fun o heq => hmoves o (heq ▸ List.mem_cons_self)
    have hplay : s.play around (m :: moves) = (s.move around m).play around moves := rfl
    obtain hstay | ⟨r, next, x, service, hp, hheard, hmove⟩ := (step_move s m).single hrunning hwaits hfirst
    · rw [hplay, hstay]
      exact ih hlater
    · exact .inr ⟨r, next, x, service, moves, hp, hheard, hlater, by rw [hplay, hmove]⟩

structure Alone (around : Surroundings) (φ : SweepPhase) (db : Database) (log : List Exchange) (s : Scene) : Prop where
  running : s.running = [φ.upshot around]
  waits : s.service.forwarded = []
  store : s.service.db = db
  told : s.log = log

/-- A sweep alone is left as it is, or goes on with what it hears, which is the store's own answer unless it failed. -/
theorem Alone.play {φ : SweepPhase} {db : Database} {log : List Exchange} (h : s.Alone around φ db log) {r : Request}
    {next : r.Reply → SweepPhase × List SweepEvent} (hask : φ.ask? around.settings around.limit = some ⟨r, next⟩)
    (hwrites : ¬ r.Writes) (hspawn : ∀ run, r ≠ .spawn run) (hmoves : ∀ o, .begin o ∉ moves) :
    s.play around moves = s ∨ ∃ (x : r.Reply) (a b : Service) (s₁ : Scene) (later : List Move), a.db = db ∧
      Hears around r a x b ∧ s₁.Alone around (next x).1 db (log ++ [⟨r, x⟩]) ∧ (∀ o, .begin o ∉ later) ∧
      s.play around moves = s₁.play around later := by
  refine (play_single h.running h.waits hmoves).imp_right ?_
  rintro ⟨r', next', x, service, later, hp, hheard, hlater, hplay⟩
  rw [SweepPhase.upshot_eq_ask hask] at hp
  cases hp
  obtain ⟨hdb, hforwarded⟩ := hheard.quiet hwrites hspawn
  exact ⟨x, s.service, service, _, later, h.store, hheard,
    ⟨rfl, hforwarded.trans h.waits, hdb.trans h.store, congrArg (· ++ _) h.told⟩, hlater, hplay⟩

/-- The beginning of a sweep: it has not listed yet what is due, or the listing failed and that is all, or it goes on with
what is due. -/
theorem opening {service : Service} (hwaits : service.forwarded = []) (hmoves : ∀ o, .begin o ∉ moves)
    (hs : s = (of around service .sweep).play around moves) :
    (∃ φ log, s.Alone around φ service.db log ∧ (φ = .starting ∨ ∃ now, φ = .listing now)) ∨
    (∃ now e, s.Alone around (.ended (.error ⟨e⟩)) service.db [⟨.now, now⟩, ⟨.dueTasks now, .error e⟩]) ∨
    ∃ (now : Instant) (due : List ScheduledTask) (s₁ : Scene) (later : List Move), service.db.dueTasks now = .ok due ∧
      s₁.Alone around (.goOn ⟨0, 0, 0⟩ due) service.db [⟨.now, now⟩, ⟨.dueTasks now, .ok due⟩] ∧
      (∀ o, .begin o ∉ later) ∧ s = s₁.play around later := by
  have hstarting : (of around service .sweep).Alone around .starting service.db [] := ⟨rfl, hwaits, rfl, rfl⟩
  obtain hstill | ⟨now, a, b, s₁, later₁, -, -, hlisting, hlater₁, hplay₁⟩ :=
    hstarting.play rfl id (fun run heq => by cases heq) hmoves
  · exact .inl ⟨_, _, hs ▸ hstill.symm ▸ hstarting, .inl rfl⟩
  have hs₁ := hs.trans hplay₁
  obtain hstill | ⟨x, a, b, s₂, later₂, hdb, hheard, hlisted, hlater₂, hplay₂⟩ :=
    hlisting.play rfl id (fun run heq => by cases heq) hlater₁
  · exact .inl ⟨_, _, hs₁ ▸ hstill.symm ▸ hlisting, .inr ⟨now, rfl⟩⟩
  cases x with
  | error e =>
    refine .inr (.inl ⟨now, e, ?_⟩)
    obtain hstill | ⟨r, next, x, service, later, hp, -⟩ := play_single hlisted.running hlisted.waits hlater₂
    · exact hs₁ ▸ hplay₂ ▸ hstill.symm ▸ hlisted
    · cases hp
  | ok due =>
    refine .inr (.inr ⟨now, due, s₂, later₂, ?_, hlisted, hlater₂, hs₁.trans hplay₂⟩)
    obtain hanswers | ⟨⟨e, he⟩, -⟩ := hheard
    · exact hdb ▸ hanswers.due.symm
    · cases he

/-- With what was listed the sweep settles one task after the other. -/
theorem upshot_goOn (s : SweepSummary) (due : List ScheduledTask) : (SweepPhase.goOn s due).upshot around =
    ScheduledTask.settleAll around.settings around.limit s due >>= fun summary => .done (.swept (.ok summary)) := by
  have hsettling : SweepPhase.settling around.settings around.limit s due =
      ScheduledTask.settleAll around.settings around.limit s due >>= fun summary => .done (.ok summary) := rfl
  rw [SweepPhase.upshot, SweepPhase.program_goOn, hsettling]
  exact Program.bind_bind _ _ _

section
variable {db : Database} {now : Instant} {due : List ScheduledTask} {s₁ : Scene} {log : List Exchange}

/-- While the due tasks are settled, the store stands as told, and everything keeps to the terms. -/
theorem Alone.keeps (h : s₁.Alone around (.goOn ⟨0, 0, 0⟩ due) db [⟨.now, now⟩, ⟨.dueTasks now, .ok due⟩])
    (hdue : ∀ t ∈ due, t.id ≤ db.lastTaskId) (hmoves : ∀ o, .begin o ∉ moves) (hs : s = s₁.play around moves) :
    s.Keeps (.settling db due s.log) (Standing db) := by
  subst hs
  have htold : s₁.log ⊆ (s₁.play around moves).log := (log_grows_play s₁ moves).subset
  refine Keeps.play (settling_regime hdue) (Move.suits_of_ne_begin hmoves) ⟨?_, ?_, ?_, ?_⟩ (List.Subset.refl _)
  · rw [h.running, upshot_goOn]
    refine List.forall_mem_singleton.mpr (Program.meets_bind (P := fun _ => True) ?_ fun _ _ => trivial)
    exact settleAll_meets around.settings around.limit _
  · rw [h.waits]
    exact List.forall_mem_nil _
  · intro e he
    have htells : e ∈ (s₁.play around moves).log := htold he
    rw [h.told] at he
    simp only [List.mem_cons, List.not_mem_nil, or_false] at he
    obtain rfl | rfl := he
    · exact ⟨trivial, htells, trivial⟩
    · exact ⟨trivial, htells, trivial⟩
  · rw [h.store, h.told]
    refine Standing.start fun e he => ?_
    simp only [List.mem_cons, List.not_mem_nil, or_false] at he
    obtain rfl | rfl := he <;> exact id

end

/-- What a sweep comes to that lists `due`: no task is skipped and each of them is counted; they are handled one after the
other; their rows are the only ones that change, and say in the end whether all was there that the task refers to, unless
something failed that the sweep depends on; and new rows are pending, and stored by its runs. -/
structure Settles (around : Surroundings) (db : Database) (now : Instant) (due : List ScheduledTask)
    (summary : SweepSummary) (s : Scene) : Prop where
  lists : db.Lists now due
  skipped : summary.skipped = 0
  counted : summary.processed + summary.failed = due.length
  course : ∃ own ends, (⟨.now, now⟩ :: ⟨.dueTasks now, .ok due⟩ :: own : List Exchange).Sublist s.log ∧
    ScheduledTask.HandledAll around.settings around.limit due own ends ∧ summary = ends.foldl .note ⟨0, 0, 0⟩ ∧
    (Faultless s.log → ends = due.map fun t => .ended (t.missing? db))
  tasks : ∃ old new, s.service.db.tasks = old ++ new ∧
    Changed (fun row => row.id ∈ due.map (·.id)) TaskRow.SameTask db.tasks old ∧
    (Faultless s.log → old = db.tasks.map (·.settled db due)) ∧
    ∀ row ∈ new, isPending row = true ∧ ∃ f next u id stored, Sprung due s.log f ∧
      row = .ofNew id stored (f.taskAt next u)

section
variable {db : Database} {now : Instant} {due : List ScheduledTask} {s₁ : Scene}

/-- What the sweep itself has asked, to which the others have added nothing about any task. -/
theorem Alone.exists_own (h : s₁.Alone around (.goOn ⟨0, 0, 0⟩ due) db [⟨.now, now⟩, ⟨.dueTasks now, .ok due⟩])
    (hmoves : ∀ o, .begin o ∉ moves) (hs : s = s₁.play around moves) {q : Program Upshot}
    (hfirst : s.running[0]? = some q) : ∃ own,
      ((SweepPhase.goOn ⟨0, 0, 0⟩ due).upshot around).Goes own q ∧
      (⟨.now, now⟩ :: ⟨.dueTasks now, .ok due⟩ :: own : List Exchange).Sublist s.log ∧
      ∀ id, s.log.filter (Exchange.isAbout id) = own.filter (Exchange.isAbout id) := by
  obtain ⟨own, htrail⟩ := (Trail.start h.running).play around hmoves
  rw [← hs] at htrail
  obtain ⟨q', rest, hrunning, hgoes, -⟩ := htrail.running
  obtain ⟨later, hlog, hsub, habout⟩ := htrail.told
  rw [h.told] at hlog
  rw [hrunning] at hfirst
  obtain rfl : q' = q := Option.some.inj hfirst
  refine ⟨own, hgoes, ?_, fun id => ?_⟩
  · rw [hlog]
    exact (hsub.cons_cons _).cons_cons _
  · rw [hlog, ← habout id]
    rfl

/-- When the sweep has come to its end, it has handled the tasks one after the other. -/
theorem handledAll_of_yields {own : List Exchange} {x : Upshot}
    (h : ((SweepPhase.goOn ⟨0, 0, 0⟩ due).upshot around).Yields own x) : ∃ ends,
      ScheduledTask.HandledAll around.settings around.limit due own ends ∧
      x = .swept (.ok (ends.foldl .note ⟨0, 0, 0⟩)) := by
  rw [upshot_goOn] at h
  obtain ⟨summary, l₁, l₂, rfl, hsettled, rfl, rfl⟩ := Program.yields_bind.mp h
  obtain ⟨ends, hall, rfl⟩ := ScheduledTask.settleAll_yields_iff.mp hsettled
  exact ⟨ends, (List.append_nil l₁).symm ▸ hall, rfl⟩

theorem exists_row_of_due (hlisted : db.dueTasks now = .ok due) {t : ScheduledTask} (ht : t ∈ due) :
    ∃ row ∈ db.tasks, row.id = t.id ∧ isPending row = true := by
  obtain ⟨row, hrow, hread⟩ := mem_of_mapM hlisted t ht
  obtain ⟨hmem, hpending, -⟩ := mem_dueRows.mp hrow
  exact ⟨row, hmem, (TaskRow.read_id hread).symm, hpending⟩

/-- When the sweep has come to its end, all that was due is settled, and nothing else has changed. -/
theorem Alone.settles (h : s₁.Alone around (.goOn ⟨0, 0, 0⟩ due) db [⟨.now, now⟩, ⟨.dueTasks now, .ok due⟩])
    (hids : db.TaskIds) (hlisted : db.dueTasks now = .ok due) (hmoves : ∀ o, .begin o ∉ moves)
    (hs : s = s₁.play around moves) {x : Upshot} (hended : s.running[0]? = some (.done x)) :
    ∃ summary, x = .swept (.ok summary) ∧ s.Settles around db now due summary := by
  have hdue : ∀ t ∈ due, t.id ≤ db.lastTaskId := by
    intro t ht
    obtain ⟨row, hrow, hid, -⟩ := exists_row_of_due hlisted ht
    exact hid ▸ hids.le row hrow
  have hkeeps := h.keeps hdue hmoves hs
  obtain ⟨new, htasks, hnew⟩ := hkeeps.stored.tasks
  obtain ⟨own, hgoes, hsub, habout⟩ := h.exists_own hmoves hs hended
  obtain ⟨ends, hall, rfl⟩ := handledAll_of_yields hgoes.yields
  have hnodup := dueTasks_nodup hids hlisted
  have hown : own ⊆ s.log := fun e he => hsub.subset (List.mem_cons_of_mem _ (List.mem_cons_of_mem _ he))
  have hrewritten (row : TaskRow) : row.rewritten s.log = row.rewritten own := by
    rw [← row.rewritten_filter s.log, habout, row.rewritten_filter]
  have heach := hall.each hnodup
  -- No other sweep is under way, so no claim of a task that was pending is lost.
  have hlost : ∀ t ∈ due, (own.filter (Exchange.isAbout t.id)).head? ≠ some ⟨.claimTask t.id, .ok false⟩ := by
    intro t ht
    obtain ⟨row, hrow, hid, hpending⟩ := exists_row_of_due hlisted ht
    rw [← habout, ← hid]
    exact hkeeps.stored.claims row hrow hpending
  have hended : List.Forall₂ (fun t ending => ending ≠ .lost ∧
      ScheduledTask.HandledIn around.settings around.limit own t ending) due ends :=
    ((List.forall₂_and_left _ _).mpr ⟨hlost, heach⟩).imp fun t ending ht => ⟨ht.2.ne_lost ht.1, ht.2⟩
  have hnone : Ending.lost ∉ ends := by
    intro hmem
    obtain ⟨t, -, hne, -⟩ := exists_of_forall₂ hended _ hmem
    exact hne rfl
  -- Without failures, what a task comes to is decided by whether all that it refers to is there.
  have hends (hfaultless : Faultless s.log) : ends = due.map fun t => .ended (t.missing? db) := by
    rw [← List.forall₂_eq_eq_eq, List.forall₂_map_right_iff]
    refine (hended.imp fun t ending ht => ?_).flip
    exact ht.2.ending_eq ht.1 (hfaultless.mono hown) fun e he => (hkeeps.told e (hown he)).2.2
  obtain ⟨hskipped, hcounted⟩ := SweepSummary.foldl_note hnone ⟨0, 0, 0⟩
  refine ⟨_, rfl, hids.lists hlisted, hskipped, ?_, ⟨own, ends, hsub, hall, rfl, hends⟩, ?_⟩
  · rw [hcounted, heach.length_eq]
    exact Nat.zero_add _
  · refine ⟨_, new, htasks, ?_, fun hfaultless => ?_, fun row hrow => ?_⟩
    · refine List.forall₂_map_right_iff.mpr (List.forall₂_same.mpr fun row _ => ?_)
      by_cases hid : row.id ∈ due.map (·.id)
      · exact .inr ⟨hid, row.rewritten_sameTask _⟩
      · refine .inl ?_
        rw [hrewritten, ← row.rewritten_filter own, hall.about_other hid]
        rfl
    · refine List.map_congr_left fun row _ => ?_
      rw [hrewritten]
      exact (hends hfaultless ▸ hall).rewritten hnodup (hfaultless.mono hown) row
    · obtain ⟨-, e, he, t, id, stored, rfl, rfl⟩ := hnew row hrow
      obtain ⟨⟨f, next, u, hf, rfl⟩, -⟩ := hkeeps.told _ he
      exact ⟨rfl, f, next, u, id, stored, hf, rfl⟩

end

end Scene
end Outreach
