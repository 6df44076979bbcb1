import Outreach.Proofs.Database.Sound
import Outreach.Proofs.Service.Captures
import Outreach.Proofs.Service.Scene

/-! What is done to automations, one thing after the other, from an empty table on. Whatever is refused leaves the table
as it was, and whatever is done leaves graphs in it that may be stored. -/
namespace Outreach
open Database

namespace Request

def Refuses : (r : Request) → r.Reply → Prop
  | .createAutomation _, x | .updateAutomation _, x | .mergeStats _ _, x => x.isOk = false
  | .setStatus _ _, x | .deleteAutomation _, x => x ≠ .ok true
  | _, _ => True

theorem LeavesAutomations.refuses {r : Request} (h : r.LeavesAutomations) (x : r.Reply) : r.Refuses x := by
  cases r <;> first | exact trivial | exact h.elim

end Request

namespace Database
variable {db : Database} {id : Uuid}

theorem change_of_none {α : Type} {p : α → Bool} {f : α → α} {rows : List α} (h : rows.any p = false) :
    (change p f rows).2 = rows := by
  refine (List.map_congr_left fun r hr => ?_).trans (List.map_id rows)
  rw [if_neg (List.any_eq_false.mp h r hr)]
  rfl

theorem setStatus_of_none {status : AutomationStatus} (h : (db.setStatus id status).1 = false) :
    (db.setStatus id status).2.automations = db.automations :=
  change_of_none h

theorem deleteAutomation_of_none (h : (db.deleteAutomation id).1 = false) :
    (db.deleteAutomation id).2.automations = db.automations := by
  refine List.filter_eq_self.mpr fun r hr => ?_
  have hnot := List.any_eq_false.mp h r hr
  rw [beq_iff_eq] at hnot
  exact bne_iff_ne.mpr hnot

end Database

namespace Service
variable {around : Surroundings} {s s' : Service} {r : Request} {x : r.Reply} {e : Exchange} {l : List Exchange}

theorem writing_refused {y : Except RepositoryError Database} {x : Except RepositoryError Unit} (h : s.writing y = (x, s'))
    (hx : x.isOk = false) : s' = s := by
  cases x with
  | ok _ => cases hx
  | error e => exact writing_eq_error h

theorem Answers.refused (h : Answers around r s x s') (hx : r.Refuses x) : s'.db.automations = s.db.automations := by
  have hleaves (hr : r.LeavesAutomations) : s'.db.automations = s.db.automations := h.automations hr
  cases r with
  | createAutomation a | updateAutomation a | mergeStats id delta =>
    obtain ⟨clock, network, seed, h⟩ := h
    rw [writing_refused h hx]
  | setStatus id status =>
    obtain ⟨clock, network, seed, h⟩ := h
    cases h
    refine setStatus_of_none ?_
    cases hfound : (s.db.setStatus id status).1 with
    | false => rfl
    | true => exact absurd (congrArg Except.ok hfound) hx
  | deleteAutomation id =>
    obtain ⟨clock, network, seed, h⟩ := h
    cases h
    refine deleteAutomation_of_none ?_
    cases hfound : (s.db.deleteAutomation id).1 with
    | false => rfl
    | true => exact absurd (congrArg Except.ok hfound) hx
  | _ => exact hleaves trivial

theorem Plays.refused (h : Plays around s l s') (hl : ∀ e ∈ l, e.request.Refuses e.reply) :
    s'.db.automations = s.db.automations := by
  induction h with
  | nil s => rfl
  | answered answers rest ih =>
    obtain ⟨he, hl⟩ := List.forall_mem_cons.mp hl
    exact (ih hl).trans (answers.refused he)
  | failed fault rest ih => exact ih (List.forall_mem_cons.mp hl).2
  | outside outside rest ih => exact ih (List.forall_mem_cons.mp hl).2
  | elsewhere leaves answers rest ih => exact (ih hl).trans (answers.automations leaves)

theorem Plays.sameGraphs (h : Plays around s l s') (hl : ∀ e ∈ l, e.request.KeepsGraphs) : s.db.SameGraphs s'.db := by
  induction h with
  | nil s => exact .refl _
  | answered answers rest ih =>
    obtain ⟨he, hl⟩ := List.forall_mem_cons.mp hl
    exact (answers.sameGraphs he).trans (ih hl)
  | failed fault rest ih => exact ih (List.forall_mem_cons.mp hl).2
  | outside outside rest ih => exact ih (List.forall_mem_cons.mp hl).2
  | elsewhere leaves answers rest ih => exact (SameGraphs.of_automations (answers.automations leaves)).trans (ih hl)

end Service

/-- A change of graphs with what was seen before it: the graph was checked, it was listed and has only a sample more, or
the trigger was seen of what becomes active. -/
inductive Warranted : List Exchange → Exchange → Prop where
  | create {a : Automation} (valid : a.Valid) (stamp : Uuid × Instant) (x : Except RepositoryError Unit) :
    Warranted [⟨.freshIdentity, stamp⟩] ⟨.createAutomation a, x⟩
  | update {a : Automation} (valid : a.Valid) (x : Except RepositoryError Unit) : Warranted [] ⟨.updateAutomation a, x⟩
  | capture {found : List Automation} {a : Automation} (listed : a ∈ found) (webhookId : String) (body : Json)
    (x : Except RepositoryError Unit) : Warranted [⟨.listAutomations .all, .ok found⟩]
      ⟨.updateAutomation (a.captureSample webhookId body), x⟩
  | activate {a : Automation} (starts : ∃ n ∈ a.nodes, n.kind = .trigger) (id : Uuid) (x : Except RepositoryError Bool) :
    Warranted [⟨.getAutomation id, .ok (some a)⟩] ⟨.setStatus id .active, x⟩
  | status {status : AutomationStatus} (rests : status ≠ .active) (id : Uuid) (x : Except RepositoryError Bool) :
    Warranted [] ⟨.setStatus id status, x⟩
  | delete (id : Uuid) (x : Except RepositoryError Bool) : Warranted [] ⟨.deleteAutomation id, x⟩

def Request.Upholds (db : Database) : Request → Prop
  | .createAutomation a | .updateAutomation a => a.Valid
  | .setStatus id status =>
    status = .active → ∃ a, db.automation? id = .ok (some a) ∧ ∃ n ∈ a.nodes, n.kind = .trigger
  | _ => True

theorem Request.Upholds.of_automations {db db' : Database} {r : Request} (h : r.Upholds db)
    (hsame : db'.automations = db.automations) : r.Upholds db' := by
  cases r with
  | setStatus id status =>
    intro hactive
    obtain ⟨a, hget, htrigger⟩ := h hactive
    refine ⟨a, ?_, htrigger⟩
    rw [Database.automation?, hsame]
    exact hget
  | _ => exact h

theorem Database.Sound.of_automations {db db' : Database} (h : db.Sound) (hsame : db'.automations = db.automations) :
    db'.Sound :=
  h.sameGraphs (.of_automations hsame)

namespace Service
variable {around : Surroundings} {s s' : Service} {r : Request} {x : r.Reply} {before : List Exchange} {e : Exchange}

theorem writing_sound {y : Except RepositoryError Database} {x : Except RepositoryError Unit}
    (h : s.writing y = (x, s')) (hs : s.db.Sound) (hy : ∀ db, y = .ok db → db.Sound) : s'.db.Sound := by
  cases x with
  | error e =>
    rw [writing_eq_error h]
    exact hs
  | ok _ =>
    obtain ⟨db, hdb, rfl⟩ := writing_eq_ok h
    exact hy db hdb

theorem Answers.sound (h : Answers around r s x s') (hs : s.db.Sound) (hr : r.Upholds s.db) : s'.db.Sound := by
  have hkeeps (hkeeps : r.KeepsGraphs) : s'.db.Sound := hs.sameGraphs (h.sameGraphs hkeeps)
  cases r with
  | createAutomation a =>
    obtain ⟨clock, network, seed, h⟩ := h
    exact writing_sound h hs fun _ => hs.createAutomation hr
  | updateAutomation a =>
    obtain ⟨clock, network, seed, h⟩ := h
    exact writing_sound h hs fun _ => hs.updateAutomation hr
  | setStatus id status =>
    obtain ⟨clock, network, seed, h⟩ := h
    cases h
    exact hs.setStatus hr
  | deleteAutomation id =>
    obtain ⟨clock, network, seed, h⟩ := h
    cases h
    exact hs.deleteAutomation id
  | _ => exact hkeeps trivial

theorem Plays.sound_of_last (h : Plays around s [e] s') (hs : s.db.Sound) (he : e.request.Upholds s.db) :
    s'.db.Sound := by
  obtain ⟨s₁, s₂, hbefore, heffect, hrest⟩ := h.head
  have hs₁ := hs.of_automations hbefore
  refine Sound.of_automations ?_ (hrest.automations (List.forall_mem_nil _))
  obtain hanswers | ⟨-, rfl⟩ := heffect
  · exact hanswers.sound hs₁ (he.of_automations hbefore)
  · exact hs₁

theorem Answers.listAutomations {audience : Audience} {x : Except RepositoryError (List Automation)}
    (h : Answers around (.listAutomations audience) s x s') : s.db.listAutomations audience = x ∧ s'.db = s.db := by
  obtain ⟨clock, network, seed, h⟩ := h
  exact ⟨congrArg Prod.fst h, congrArg (fun y => y.2.db) h.symm⟩

theorem Answers.getAutomation {id : Uuid} {x : Except RepositoryError (Option Automation)}
    (h : Answers around (.getAutomation id) s x s') : s.db.automation? id = x ∧ s'.db = s.db := by
  obtain ⟨clock, network, seed, h⟩ := h
  exact ⟨congrArg Prod.fst h, congrArg (fun y => y.2.db) h.symm⟩

/-- What was seen before a change is still so when the change is made. -/
theorem Plays.sound_of_warranted (h : Plays around s (before ++ [e]) s') (hwarranted : Warranted before e)
    (hs : s.db.Sound) : s'.db.Sound := by
  cases hwarranted with
  | update valid x => exact h.sound_of_last hs valid
  | status rests id x => exact h.sound_of_last hs fun hactive => absurd hactive rests
  | delete id x => exact h.sound_of_last hs trivial
  | create valid stamp x =>
    obtain ⟨s₁, hsame, hrest⟩ := h.split (List.forall_mem_singleton.mpr trivial)
    exact hrest.sound_of_last (hs.of_automations hsame) valid
  | capture listed webhookId body x =>
    obtain ⟨s₁, s₂, hbefore, heffect, hrest⟩ := h.head
    have hs₁ := hs.of_automations hbefore
    obtain hanswers | ⟨⟨fault, hfault⟩ | houtside, -⟩ := heffect
    · obtain ⟨hlist, hsame⟩ := hanswers.listAutomations
      exact hrest.sound_of_last (hsame ▸ hs₁) ((hs₁.valid_of_listed hlist listed).captureSample webhookId body)
    · cases hfault
    · exact houtside.elim
  | activate starts id x =>
    obtain ⟨s₁, s₂, hbefore, heffect, hrest⟩ := h.head
    have hs₁ := hs.of_automations hbefore
    obtain hanswers | ⟨⟨fault, hfault⟩ | houtside, -⟩ := heffect
    · obtain ⟨hget, hsame⟩ := hanswers.getAutomation
      exact hrest.sound_of_last (hsame ▸ hs₁) fun _ => ⟨_, by rw [hsame]; exact hget, starts⟩
    · cases hfault
    · exact houtside.elim

end Service

section Runs
variable (settings : EngineSettings) (limit : Nat)

def Terms.graphs : Terms := ⟨Request.KeepsGraphs, fun _ _ => True⟩

theorem RunFrame.needs_graphs (f : RunFrame) : f.Needs settings .graphs where
  allows := Terms.allows_of_acting (fun r hr => by cases r <;> first | exact trivial | exact hr.elim) _ _
  insert _ _ _ := trivial
  spawn _ _ _ _ _ := trivial
  merge _ := trivial

theorem fire_graphs (event : Event) (contactId : Int) (scope : Scope) :
    Attempt.Meets .graphs (fun _ => True) (fire settings limit event contactId scope) :=
  fire_meets_within settings limit trivial (fun _ => trivial) (fun _ _ => trivial) fun _ _ _ _ _ _ _ =>
    RunFrame.run_meets_of (RunFrame.needs_graphs settings _) limit none

theorem inbox_graphs (n : Notification) : (Inbox.process settings limit n).Meets .graphs fun _ => True :=
  Inbox.process_meets_of settings limit fun _ _ =>
    Inbox.handle_meets_of settings limit trivial (fire_graphs settings limit _)

theorem sweep_graphs : Attempt.Meets .graphs (fun _ => True) (sweep settings limit) := by
  refine sweep_meets_of settings limit trivial (fun _ => trivial) fun _ _ _ t _ => ?_
  have hresume : Attempt.Meets .graphs (fun _ => True) (t.resume settings limit) :=
    ScheduledTask.resume_meets_within settings limit trivial trivial trivial fun _ _ _ _ _ =>
      RunFrame.needs_graphs settings _
  exact ScheduledTask.settle_meets_of settings limit trivial (fun _ => hresume) (fun _ _ _ => trivial)
    fun _ _ _ _ => trivial

end Runs

inductive Operation where
  | create (user : Uuid) (new : NewAutomation)
  | importText (user : Uuid) (document : String)
  | update (a : Automation)
  | setStatus (id : Uuid) (status : AutomationStatus)
  | delete (id : Uuid)
  | run (f : RunFrame) (resumeFrom : Option String)
  | occasion (o : Occasion)

/-- Whether it was done. Once events are fired for a call, it is the one that could not be fired which was refused, and not
those before it. -/
def Upshot.accepted : Upshot → Bool
  | .fired x => x.isOk
  | .served (.ok _) | .served (.error (.fire _)) => true
  | .served (.error _) => false
  | .swept x => x.isOk
  | .processed _ | .forwarded => true

namespace Operation

def succeeds {ε α : Type} (p : Attempt ε α) : Program Bool := do return (← p.run).isOk

def program (around : Surroundings) : Operation → Program Bool
  | .create user new => succeeds (Management.create user new)
  | .importText user document => succeeds (Management.importText user document)
  | .update a => succeeds (Management.update a)
  | .setStatus id status => succeeds (Management.setStatus id status)
  | .delete id => succeeds (Management.delete id)
  | .run f resumeFrom => succeeds (f.run around.settings around.limit resumeFrom)
  | .occasion o => do return (← o.program around).accepted

variable {around : Surroundings} {l : List Exchange} {done : Bool}

theorem succeeds_yields {ε α : Type} {p : Attempt ε α} :
    (succeeds p).Yields l done ↔ ∃ x, p.Yields l x ∧ done = x.isOk := by
  refine Program.yields_bind.trans ?_
  constructor
  · rintro ⟨x, l₁, l₂, rfl, hp, rfl, rfl⟩
    exact ⟨x, (List.append_nil l₁).symm ▸ hp, rfl⟩
  · rintro ⟨x, hp, rfl⟩
    exact ⟨x, l, [], (List.append_nil l).symm, hp, rfl, rfl⟩

/-- What an operation asks: nothing that changes graphs, or one change that is warranted; and when it was not done, whatever
it asked was refused. -/
structure Traced (l : List Exchange) (done : Bool) : Prop where
  warranted : (∀ e ∈ l, e.request.KeepsGraphs) ∨ ∃ before e, l = before ++ [e] ∧ Warranted before e
  refused : done = false → ∀ e ∈ l, e.request.Refuses e.reply

theorem traced_of_leaves (h : ∀ e ∈ l, e.request.LeavesAutomations) : Traced l done :=
  ⟨.inl fun e he => (h e he).keepsGraphs, fun _ e he => (h e he).refuses e.reply⟩

theorem traced_of_last {before : List Exchange} {e : Exchange} (h : Warranted before e)
    (hrefused : done = false → e.request.Refuses e.reply) : Traced (before ++ [e]) done where
  warranted := .inr ⟨before, e, rfl, h⟩
  refused hdone := by
    refine List.forall_mem_append.mpr ⟨?_, List.forall_mem_singleton.mpr (hrefused hdone)⟩
    cases h <;> first | exact List.forall_mem_singleton.mpr trivial | exact List.forall_mem_nil _

theorem checkGraph_yields {a : Automation} {x : Except ManagementError Unit}
    (h : (Management.checkGraph a).Yields l x) : l = [] ∧ (x = .ok () → a.Valid) := by
  rw [← Automation.fault?_eq_none_iff]
  unfold Management.checkGraph at h
  split at h
  · obtain ⟨rfl, rfl⟩ := h
    exact ⟨rfl, nofun⟩
  · obtain ⟨rfl, rfl⟩ := h
    exact ⟨rfl, fun _ => ‹_›⟩

theorem traced_create {user : Uuid} {new : NewAutomation} {x : Except ManagementError Automation}
    (h : (Management.create user new).Yields l x) : Traced l x.isOk := by
  unfold Management.create at h
  dsimp only at h
  split at h
  · obtain ⟨e, ⟨rfl, he⟩, rfl⟩ | ⟨_, _, _, _, ⟨-, hx⟩, -⟩ := Attempt.yields_bind.mp h
    · exact traced_of_leaves (List.forall_mem_nil _)
    · cases hx
  · obtain ⟨e, hfresh, -⟩ | ⟨stamp, l₁, l₂, rfl, hfresh, hrest⟩ := Attempt.yields_bind.mp h
    · obtain ⟨_, -, he⟩ := Attempt.yields_always.mp hfresh
      cases he
    obtain ⟨_, hasked, hstamp⟩ := Attempt.yields_always.mp hfresh
    cases hstamp
    obtain rfl := Program.yields_request.mp hasked
    obtain ⟨e, hcheck, rfl⟩ | ⟨_, l₃, l₄, rfl, hcheck, hlast⟩ := Attempt.yields_bind.mp hrest
    · obtain ⟨rfl, -⟩ := checkGraph_yields hcheck
      exact traced_of_leaves (List.forall_mem_singleton.mpr trivial)
    obtain ⟨rfl, hvalid⟩ := checkGraph_yields hcheck
    obtain ⟨e, rfl, rfl⟩ | ⟨_, rest, rfl, rfl, rfl⟩ :=
      (Attempt.yields_bind_asked fun _ _ => Program.yields_request).mp hlast
    · exact traced_of_last (.create (hvalid rfl) stamp (.error e)) fun _ => rfl
    · exact traced_of_last (.create (hvalid rfl) stamp (.ok ())) nofun

theorem traced_importText {user : Uuid} {document : String} {x : Except ManagementError Automation}
    (h : (Management.importText user document).Yields l x) : Traced l x.isOk := by
  revert h
  unfold Management.importText
  cases Decode.ofText NewAutomation.decode document with
  | ok new => exact traced_create
  | error e =>
    intro h
    obtain ⟨rfl, rfl⟩ := h
    exact traced_of_leaves (List.forall_mem_nil _)

theorem traced_update {a : Automation} {x : Except ManagementError Unit} (h : (Management.update a).Yields l x) :
    Traced l x.isOk := by
  obtain ⟨e, hcheck, rfl⟩ | ⟨_, l₁, l₂, rfl, hcheck, hlast⟩ := Attempt.yields_bind.mp h
  · obtain ⟨rfl, -⟩ := checkGraph_yields hcheck
    exact traced_of_leaves (List.forall_mem_nil _)
  · obtain ⟨rfl, hvalid⟩ := checkGraph_yields hcheck
    obtain ⟨y, hasked, rfl⟩ := Attempt.yields_of.mp hlast
    obtain rfl := Program.yields_request.mp hasked
    refine traced_of_last (.update (hvalid rfl) y) fun hdone => ?_
    cases y with
    | ok _ => cases hdone
    | error e => rfl

/-- One request that tells whether it has found its row. -/
theorem found_yields {p : Program (Except RepositoryError Bool)} {e : Except RepositoryError Bool → Exchange} {id : Uuid}
    {x : Except ManagementError Unit} (hp : ∀ l y, p.Yields l y ↔ l = [e y])
    (h : Attempt.Yields (do unless ← Management.stored p do throw (.notFound id)) l x) :
    ∃ y, l = [e y] ∧ (x.isOk = false → y ≠ .ok true) := by
  obtain ⟨fault, rfl, rfl⟩ | ⟨found, rest, rfl, hrest⟩ := (Attempt.yields_bind_asked hp).mp h
  · exact ⟨_, rfl, nofun⟩
  · cases found with
    | true =>
      obtain ⟨rfl, rfl⟩ := hrest
      exact ⟨_, rfl, nofun⟩
    | false =>
      obtain ⟨rfl, rfl⟩ := hrest
      exact ⟨_, rfl, nofun⟩

theorem get_yields {id : Uuid} {x : Except ManagementError Automation} (h : (Management.get id).Yields l x) :
    (∀ e ∈ l, e.request.LeavesAutomations) ∧ ∀ a, x = .ok a → l = [⟨.getAutomation id, .ok (some a)⟩] := by
  obtain ⟨fault, rfl, rfl⟩ | ⟨found, rest, rfl, hrest⟩ :=
    (Attempt.yields_bind_asked fun _ _ => Program.yields_request).mp h
  · exact ⟨List.forall_mem_singleton.mpr trivial, nofun⟩
  · cases found with
    | none =>
      obtain ⟨rfl, rfl⟩ := hrest
      exact ⟨List.forall_mem_singleton.mpr trivial, nofun⟩
    | some a =>
      obtain ⟨rfl, rfl⟩ := hrest
      refine ⟨List.forall_mem_singleton.mpr trivial, fun b hb => ?_⟩
      cases hb
      rfl

theorem traced_setStatus {id : Uuid} {status : AutomationStatus} {x : Except ManagementError Unit}
    (h : (Management.setStatus id status).Yields l x) : Traced l x.isOk := by
  unfold Management.setStatus at h
  split at h
  · rename_i hactive
    obtain rfl := beq_iff_eq.mp hactive
    obtain ⟨e, hget, rfl⟩ | ⟨a, l₁, l₂, rfl, hget, hrest⟩ := Attempt.yields_bind.mp h
    · exact traced_of_leaves (get_yields hget).1
    · obtain rfl := (get_yields hget).2 a rfl
      split at hrest
      · obtain ⟨e, ⟨rfl, -⟩, rfl⟩ | ⟨_, _, _, _, ⟨-, hx⟩, -⟩ := Attempt.yields_bind.mp hrest
        · exact traced_of_leaves (List.forall_mem_singleton.mpr trivial)
        · cases hx
      · rename_i hstarts
        rw [Automation.triggerNode?_isNone, not_not] at hstarts
        obtain ⟨y, rfl, hrefused⟩ := found_yields (fun _ _ => Program.yields_request) hrest
        exact traced_of_last (.activate hstarts id y) hrefused
  · rename_i hrests
    obtain ⟨y, rfl, hrefused⟩ := found_yields (fun _ _ => Program.yields_request) h
    exact traced_of_last (.status (by simpa using hrests) id y) hrefused

theorem traced_delete {id : Uuid} {x : Except ManagementError Unit}
    (h : (Management.delete id).Yields l x) : Traced l x.isOk := by
  obtain ⟨y, rfl, hrefused⟩ := found_yields (fun _ _ => Program.yields_request) h
  exact traced_of_last (.delete id y) hrefused

theorem traced_run {f : RunFrame} {resumeFrom : Option String} {settings : EngineSettings} {limit : Nat}
    {x : Except RunError RunReport} (h : (f.run settings limit resumeFrom).Yields l x) : Traced l x.isOk := by
  have hran := RunFrame.run_yields_iff.mp h
  refine ⟨.inl fun e he => (hran.isFiring e he).keepsGraphs, fun hfailed => ?_⟩
  cases hran with
  | nowhere start => exact List.forall_mem_nil _
  | walked start walked within merged =>
    refine List.forall_mem_append.mpr ⟨fun e he => (walked.leavesAutomations e he).refuses e.reply, ?_⟩
    refine List.forall_mem_singleton.mpr ?_
    cases merged with
    | ok _ => cases hfailed
    | error e => rfl

theorem traced_fire {settings : EngineSettings} {limit : Nat} {event : Event} {contactId : Int} {scope : Scope}
    {x : Except FireError DispatchReport} (h : (fire settings limit event contactId scope).Yields l x) :
    Traced l x.isOk := by
  have hfired := fire_yields_iff.mp h
  refine ⟨.inl fun e he => (hfired.isFiring e he).keepsGraphs, fun hfailed e he => ?_⟩
  cases hfired with
  | failed loads =>
    have hlookup := loads.lookups e he
    refine Request.LeavesAutomations.refuses ?_ e.reply
    revert hlookup
    cases e.request <;> first | exact fun _ => trivial | exact False.elim
  | skipped loads => cases hfailed
  | ran loads runs => cases hfailed

theorem traced_call {settings : EngineSettings} {limit : Nat} {webhookId : String} {body : Json}
    {x : Except IntakeError IntakeOutcome} (h : (Intake.handle settings limit webhookId body).Yields l x) :
    Traced l (Upshot.served x).accepted := by
  have hhandled := Intake.handle_yields_iff.mp h
  cases hhandled with
  | unlisted | unknown | phoneless => exact traced_of_leaves (List.forall_mem_singleton.mpr trivial)
  | captured found listening saved =>
    refine traced_of_last (.capture (List.mem_of_find?_eq_some found) webhookId body saved) fun hrefused => ?_
    cases saved with
    | ok _ => cases hrefused
    | error e => rfl
  | served found quiet given served =>
    have hfinds {owner : Uuid} {phone : String} {l : List Exchange} {y : Except IntakeError (Contact × Bool)}
        (h : Intake.Finds owner phone body l y) : ∀ e ∈ l, e.request.LeavesAutomations := by
      cases h <;> simp [Request.LeavesAutomations]
    cases served with
    | unfound finds => exact traced_of_leaves (List.forall_mem_cons.mpr ⟨trivial, hfinds finds⟩)
    | connectionFailed finds | unconnected finds =>
      refine traced_of_leaves (List.forall_mem_cons.mpr ⟨trivial, List.forall_mem_append.mpr ⟨hfinds finds, ?_⟩⟩)
      exact List.forall_mem_singleton.mpr trivial
    | stopped finds stops =>
      refine ⟨.inl (List.forall_mem_cons.mpr ⟨trivial, ?_⟩), nofun⟩
      refine List.forall_mem_append.mpr ⟨fun e he => (hfinds finds e he).keepsGraphs, ?_⟩
      exact List.forall_mem_cons.mpr ⟨trivial, fun e he => (stops.isFiring e he).keepsGraphs⟩
    | dispatched finds fired =>
      refine ⟨.inl (List.forall_mem_cons.mpr ⟨trivial, ?_⟩), nofun⟩
      refine List.forall_mem_append.mpr ⟨fun e he => (hfinds finds e he).keepsGraphs, ?_⟩
      exact List.forall_mem_cons.mpr ⟨trivial, fun e he => (fired.isFiring e he).keepsGraphs⟩

theorem traced_sweep {settings : EngineSettings} {limit : Nat} {x : Except SweepError SweepSummary}
    (h : (sweep settings limit).Yields l x) : Traced l x.isOk := by
  refine ⟨.inl ((sweep_graphs settings limit).of_yields h fun _ _ => trivial).1, fun hfailed => ?_⟩
  obtain ⟨e, hnow, -⟩ | ⟨now, l₁, l₂, rfl, hnow, hrest⟩ := Attempt.yields_bind.mp h
  · obtain ⟨_, -, he⟩ := Attempt.yields_always.mp hnow
    cases he
  obtain ⟨_, hasked, hok⟩ := Attempt.yields_always.mp hnow
  obtain rfl := Program.yields_request.mp hasked
  obtain ⟨e, rfl, rfl⟩ | ⟨due, rest, rfl, hsettled⟩ :=
    (Attempt.yields_bind_asked fun _ _ => Program.yields_request).mp hrest
  · exact List.forall_mem_cons.mpr ⟨trivial, List.forall_mem_singleton.mpr trivial⟩
  · obtain ⟨_, -, rfl⟩ := Attempt.yields_always.mp hsettled
    cases hfailed

theorem traced_of_succeeds {ε α : Type} {p : Attempt ε α} (hp : ∀ x, p.Yields l x → Traced l x.isOk) :
    (succeeds p).Yields l done → Traced l done := by
  rw [succeeds_yields]
  rintro ⟨x, hx, rfl⟩
  exact hp x hx

theorem traced_of_occasion {α : Type} {p : Program α} {f : α → Upshot}
    (hp : ∀ x, p.Yields l x → Traced l (f x).accepted) :
    (do return (← (do return f (← p) : Program Upshot)).accepted : Program Bool).Yields l done → Traced l done := by
  intro h
  obtain ⟨u, l₁, l₂, rfl, hu, rfl, rfl⟩ := Program.yields_bind.mp h
  obtain ⟨x, l₃, l₄, rfl, hx, rfl, rfl⟩ := Program.yields_bind.mp hu
  rw [List.append_nil, List.append_nil] at hp ⊢
  exact hp x hx

theorem traced (o : Operation) : (o.program around).Yields l done → Traced l done := by
  cases o with
  | create user new => exact traced_of_succeeds fun _ => traced_create
  | importText user document => exact traced_of_succeeds fun _ => traced_importText
  | update a => exact traced_of_succeeds fun _ => traced_update
  | setStatus id status => exact traced_of_succeeds fun _ => traced_setStatus
  | delete id => exact traced_of_succeeds fun _ => traced_delete
  | run f resumeFrom => exact traced_of_succeeds fun _ => traced_run
  | occasion o =>
    cases o with
    | event event contactId scope => exact traced_of_occasion fun _ => traced_fire
    | call webhookId body => exact traced_of_occasion fun _ => traced_call
    | notification n =>
      refine traced_of_occasion fun x hx => ⟨.inl ?_, nofun⟩
      exact ((inbox_graphs _ _ n).of_yields hx fun _ _ => trivial).1
    | sweep => exact traced_of_occasion fun _ => traced_sweep

end Operation

namespace Service
variable {around : Surroundings} {s s' : Service} {o : Operation} {done : Bool}

def Undergoes (around : Surroundings) (o : Operation) (done : Bool) (s s' : Service) : Prop :=
  ∃ l, (o.program around).Yields l done ∧ Plays around s l s'

theorem undergoes_of_run (h : (o.program around).run (answer around) s = some (done, s')) :
    Undergoes around o done s s' :=
  exists_plays h

theorem Undergoes.refused (h : Undergoes around o false s s') : s'.db.automations = s.db.automations := by
  obtain ⟨l, hyields, hplays⟩ := h
  exact hplays.refused ((o.traced hyields).refused rfl)

theorem Undergoes.sound (h : Undergoes around o done s s') (hs : s.db.Sound) : s'.db.Sound := by
  obtain ⟨l, hyields, hplays⟩ := h
  obtain hkeeps | ⟨before, e, rfl, hwarranted⟩ := (o.traced hyields).warranted
  · exact hs.sameGraphs (hplays.sameGraphs hkeeps)
  · exact hplays.sound_of_warranted hwarranted hs

inductive Kept (around : Surroundings) : Service → Prop where
  | empty {s : Service} (none : s.db.automations = []) : Kept around s
  | operation {s s' : Service} {o : Operation} {done : Bool} (kept : Kept around s) (undergoes : Undergoes around o done s s') :
    Kept around s'
  | elsewhere {s s' : Service} (kept : Kept around s) (same : s'.db.automations = s.db.automations) : Kept around s'

theorem Kept.sound (h : Kept around s) : s.db.Sound := by
  induction h with
  | empty none => exact sound_of_nil none
  | operation kept undergoes ih => exact undergoes.sound ih
  | elsewhere kept same ih => exact ih.of_automations same

theorem Kept.settle {rounds : Nat} (h : Kept around s)
    (hsettle : settle around.settings around.limit (answer around) backlog rounds s = some s') : Kept around s' := by
  induction rounds generalizing s with
  | zero => cases hsettle
  | succ rounds ih =>
    rw [Outreach.settle] at hsettle
    split at hsettle
    · cases hsettle
      exact h
    · rename_i run s₁ htake
      obtain ⟨⟨u, s₂⟩, hrun, hrest⟩ := Option.bind_eq_some_iff.mp hsettle
      have hs₁ : s₁.db = s.db := by
        simp only [backlog] at htake
        split at htake
        · cases htake
        · cases htake
          rfl
      obtain ⟨l, hyields, hplays⟩ := exists_plays hrun
      obtain ⟨x, l₁, l₂, rfl, hx, rfl, -⟩ := Program.yields_bind.mp hyields
      rw [List.append_nil] at hplays
      have hundergoes : Undergoes around
          (.run ⟨run.automation, run.contact, run.eventContext, run.connection, run.depth⟩ none) x.isOk s₁ s₂ :=
        ⟨l₁, Operation.succeeds_yields.mpr ⟨x, hx, rfl⟩, hplays⟩
      exact ih (.operation (.elsewhere h (congrArg (·.automations) hs₁)) hundergoes) hrest

/-- So it is with whatever the service performs, and the runs that it forwards. -/
theorem Kept.perform (h : Kept around s) (hperform : s.perform around (o.program around) = some (done, s')) :
    Kept around s' := by
  obtain ⟨⟨x, s₁⟩, hrun, hrest⟩ := Option.bind_eq_some_iff.mp hperform
  obtain ⟨s₂, hsettle, hlast⟩ := Option.bind_eq_some_iff.mp hrest
  cases hlast
  exact Kept.settle (.operation h (undergoes_of_run hrun)) hsettle

/-- The check lets just those graphs pass that may be stored. Whatever operations there were since the table of automations
was empty, all graphs in it may be stored, and so may be what is read of them. An operation that is refused leaves the table
as it was. -/
theorem graphs_stay_valid (around : Surroundings) :
    (∀ a, (Management.checkGraph a = pure () ↔ a.Valid) ∧
      (¬ a.Valid → ∃ f, Management.checkGraph a = throw (.graph f))) ∧
    (∀ s, Kept around s → ∀ r ∈ s.db.automations, r.Upright ∧ ∀ a, r.read = .ok a → a.Valid) ∧
    ∀ o s s', Undergoes around o false s s' → s'.db.automations = s.db.automations := by
  refine ⟨fun a => ⟨Management.checkGraph_eq_pure_iff, fun hinvalid => ?_⟩, fun s hs r hr => ?_, fun o s s' h => h.refused⟩
  · rw [← Automation.fault?_eq_none_iff, ← ne_eq, Option.ne_none_iff_exists'] at hinvalid
    obtain ⟨f, hf⟩ := hinvalid
    exact ⟨f, by rw [Management.checkGraph, hf]⟩
  · exact ⟨hs.sound.upright r hr, fun a => hs.sound.valid hr⟩

end Service

namespace Intake
open Service

def waiting : NewAutomation :=
  ⟨"welcome", .active, [⟨"t", .trigger (.webhook "hook" true none), none⟩], [], true, false⟩

def welcome : Automation :=
  ⟨default, default, "welcome", .active, [⟨"t", .trigger (.webhook "hook" true none), none⟩], [], ⟨1717408800, 0⟩, true,
    false, []⟩

theorem welcome_valid : welcome.Valid := Automation.fault?_eq_none_iff.mp (by decide)

theorem create_welcome : (Management.create default waiting).Yields
    [⟨.freshIdentity, (default, ⟨1717408800, 0⟩)⟩, ⟨.createAutomation welcome, .ok ()⟩] (.ok welcome) := by
  have hname : Text.trim waiting.name = "welcome" := by decide
  have hcheck : (Management.checkGraph welcome).Yields [] (.ok ()) := by
    rw [Management.checkGraph_eq_pure_iff.mpr welcome_valid]
    exact ⟨rfl, rfl⟩
  unfold Management.create
  dsimp only
  rw [hname]
  refine Attempt.yields_bind.mpr (.inr ⟨(default, ⟨1717408800, 0⟩), [_], [_], rfl,
    Attempt.yields_always.mpr ⟨_, Program.yields_request.mpr rfl, rfl⟩, ?_⟩)
  refine Attempt.yields_bind.mpr (.inr ⟨(), [], [_], rfl, hcheck, ?_⟩)
  exact (Attempt.yields_bind_asked fun _ _ => Program.yields_request).mpr (.inr ⟨(), [], rfl, rfl, rfl⟩)

theorem attentive_created :
    Undergoes .offline (.create default waiting) true (.new .empty ⟨1717408800, 0⟩ 0) attentive :=
  ⟨_, Operation.succeeds_yields.mpr ⟨_, create_welcome, rfl⟩,
    .outside trivial (.answered ⟨⟨1717408800, 0⟩, .unreachable, 0, rfl⟩ (.nil _))⟩

theorem attentive_kept : Kept .offline attentive := .operation (.empty rfl) attentive_created

/-- There a graph that has its nodes twice is refused, and all stays as it may be. -/
theorem graphs_stay_valid_attentive : ∃ r a s', r ∈ attentive.db.automations ∧ r.read = .ok a ∧ a.status = .active ∧
    r.Upright ∧ a.Valid ∧ Undergoes .offline (.update { a with nodes := a.nodes ++ a.nodes }) false attentive s' ∧
    s'.db.automations = attentive.db.automations := by
  obtain ⟨found, a, -, -, hlist, hfound, -⟩ := exists_late
  obtain ⟨r, hr, hread⟩ := exists_row hlist (List.mem_of_find?_eq_some hfound)
  obtain ⟨hcheck, hkept, hrefused⟩ := graphs_stay_valid .offline
  obtain ⟨hupright, hvalid⟩ := hkept attentive attentive_kept r hr
  have ha := hvalid a hread
  have hactive : a.status = .active := by
    have hboth := List.find?_some hfound
    rw [Bool.and_eq_true, beq_iff_eq] at hboth
    exact hboth.1
  have htwice : ¬ ({ a with nodes := a.nodes ++ a.nodes } : Automation).Valid := by
    intro h
    obtain ⟨n, hn, -⟩ := ha.triggered hactive
    have hnodup := h.distinct
    rw [List.map_append] at hnodup
    exact (List.disjoint_of_nodup_append hnodup) (List.mem_map_of_mem hn) (List.mem_map_of_mem hn)
  obtain ⟨f, hf⟩ := (hcheck _).2 htwice
  have hundergoes : Undergoes .offline (.update { a with nodes := a.nodes ++ a.nodes }) false attentive attentive := by
    refine ⟨[], Operation.succeeds_yields.mpr ⟨.error (.graph f), ?_, rfl⟩, .nil _⟩
    unfold Management.update
    rw [hf]
    exact ⟨rfl, rfl⟩
  exact ⟨r, a, attentive, hr, hread, hactive, hupright, ha, hundergoes, hrefused _ _ _ hundergoes⟩

end Intake
end Outreach
