import Mathlib
import Outreach.Proofs.Engine.Depths
import Outreach.Proofs.Engine.Walk
import Outreach.Proofs.Service.Plays

/-! Where runs come from. Events fire runs, runs forward others or are suspended, and sweeps resume them. In whatever
order this happens, the depth of a run is the number of forwards between it and its event, and it keeps to the limit. -/
namespace Outreach
open Service Database

inductive Lineage where
  | fired
  | forwarded (parent : Lineage)
  | resumed (suspended : Lineage)

def Lineage.hops : Lineage → Nat
  | .fired => 0
  | .forwarded parent => parent.hops + 1
  | .resumed suspended => suspended.hops

inductive Work where
  | firing (event : Event) (contactId : Int) (rest : Program (Except FireError DispatchReport))
  | forwarded (run : ForwardedRun) (lineage : Lineage) (rest : Program Unit)
  | sweeping (phase : SweepPhase)

def SweepPhase.tasks : SweepPhase → List ScheduledTask
  | .claiming t rest _ | .resuming t rest _ _ | .recording t rest _ _ => t :: rest
  | _ => []

theorem SweepPhase.tasks_goOn (s : SweepSummary) (rest : List ScheduledTask) : (goOn s rest).tasks = rest := by
  cases rest <;> rfl

theorem SweepPhase.tasks_follow (t : ScheduledTask) (rest : List ScheduledTask) (s : SweepSummary)
    (run : Program (Except String Unit)) : (follow t rest s run).tasks = t :: rest := by
  cases run <;> rfl

namespace Work

/-- Where the run under way comes from. A sweep that resumes none neither forwards nor stores, so it does not matter
there. -/
def lineage (suspended : Int → Lineage) : Work → Lineage
  | .firing .. => .fired
  | .forwarded _ lineage _ => lineage
  | .sweeping (.resuming t ..) => .resumed (suspended t.id)
  | .sweeping _ => .fired

def depth? : Work → Option Nat
  | .firing event contactId _ => some (forwardDepth (event.context contactId))
  | .forwarded run _ _ => some run.depth
  | .sweeping (.resuming t ..) => some (forwardDepth t.context)
  | .sweeping _ => none

def ask? (settings : EngineSettings) (limit : Nat) : Work → Option ((r : Request) × (r.Reply → Work))
  | .firing event contactId (.ask r next) => some ⟨r, fun x => .firing event contactId (next x)⟩
  | .forwarded run lineage (.ask r next) => some ⟨r, fun x => .forwarded run lineage (next x)⟩
  | .sweeping phase => (phase.ask? settings limit).map fun a => ⟨a.1, fun x => .sweeping (a.2 x).1⟩
  | _ => none

end Work

/-- A service with what is under way, where the forwarded runs that wait come from, and where the runs come from that
are suspended, by the ids of their tasks. -/
structure Descent where
  service : Service
  works : List Work
  waiting : List Lineage
  suspended : Int → Lineage

def Request.forwards? : Request → Option ForwardedRun
  | .spawn run => some run
  | _ => none

namespace Descent

def after (s : Descent) (i : Nat) (w next : Work) (e : Exchange) (service : Service) : Descent where
  service := service
  works := s.works.set i next
  waiting := s.waiting ++ e.request.forwards?.toList.map fun _ => .forwarded (w.lineage s.suspended)
  suspended :=
    match e.stored? with
    | some (_, id) => Function.update s.suspended id (w.lineage s.suspended)
    | none => s.suspended

/-- An event is fired, a sweep begins, a forwarded run begins, or a request under way is answered, or fails without
effect; or something else is asked, which neither stores tasks nor forwards. -/
inductive Step (around : Surroundings) : Descent → Descent → Prop where
  | fire {s : Descent} {event : Event} (ordered : event.IsOrdered) (contactId : Int) (scope : Scope) :
    Step around s { s with
      works := s.works ++ [.firing event contactId (fire around.settings around.limit event contactId scope).run] }
  | sweep {s : Descent} : Step around s { s with works := s.works ++ [.sweeping .starting] }
  | forwarded {s : Descent} {run : ForwardedRun} {runs : List ForwardedRun} {lineage : Lineage}
    {lineages : List Lineage} (waits : s.service.forwarded = run :: runs) (waiting : s.waiting = lineage :: lineages) :
    Step around s { s with
      service := { s.service with forwarded := runs }
      works := s.works ++ [.forwarded run lineage (run.execute around.settings around.limit)]
      waiting := lineages }
  | answered {s : Descent} {service : Service} {w : Work} {r : Request} {x : r.Reply} (i : Nat)
    {next : r.Reply → Work} (under : s.works[i]? = some w)
    (asks : w.ask? around.settings around.limit = some ⟨r, next⟩) (answers : Answers around r s.service x service) :
    Step around s (s.after i w (next x) ⟨r, x⟩ service)
  | failed {s : Descent} {w : Work} {r : Request} {x : r.Reply} (i : Nat) {next : r.Reply → Work}
    (under : s.works[i]? = some w) (asks : w.ask? around.settings around.limit = some ⟨r, next⟩)
    (fault : r.IsFault x) : Step around s (s.after i w (next x) ⟨r, x⟩ s.service)
  | elsewhere {s : Descent} {service : Service} {r : Request} {x : r.Reply} (stores : ∀ t, r ≠ .insertTask t)
    (forwards : ∀ run, r ≠ .spawn run) (answers : Answers around r s.service x service) :
    Step around s { s with service := service }

def Run (around : Surroundings) : Descent → Descent → Prop := Relation.ReflTransGen (Step around)

structure IsFresh (s : Descent) : Prop where
  tasks : s.service.db.tasks = []
  forwarded : s.service.forwarded = []
  works : s.works = []
  waiting : s.waiting = []
  suspended : ∀ id, s.suspended id = .fired

end Descent

structure ForwardedRun.DescendsBy (m : Nat) (run : ForwardedRun) (lineage : Lineage) : Prop where
  parent : ∃ parent, lineage = .forwarded parent ∧ run.depth = parent.hops + 1
  depth : run.depth ≤ m
  context : run.eventContext.IsContext

theorem ForwardedRun.DescendsBy.hops {m : Nat} {run : ForwardedRun} {lineage : Lineage}
    (h : run.DescendsBy m lineage) : lineage.hops = run.depth := by
  obtain ⟨parent, rfl, hdepth⟩ := h.parent
  exact hdepth.symm

section
variable {m : Nat} {suspended : Int → Lineage} {last : Int}

structure ScheduledTask.IsKnown (suspended : Int → Lineage) (last : Int) (t : ScheduledTask) : Prop where
  le : t.id ≤ last
  depth : t.context.TellsDepth (suspended t.id).hops

def Work.Sound (m : Nat) (suspended : Int → Lineage) (last : Int) : Work → Prop
  | .firing event contactId rest =>
    forwardDepth (event.context contactId) = 0 ∧ rest.Meets (.atDepth m 0) fun _ => True
  | .forwarded run lineage rest => run.DescendsBy m lineage ∧ rest.Meets (.atDepth m run.depth) fun _ => True
  | .sweeping phase => (∀ t ∈ phase.tasks, t.IsKnown suspended last) ∧
      ∀ t rest s run, phase = .resuming t rest s run → run.Meets (.atDepth m (suspended t.id).hops) fun _ => True

def Request.ListsKnown (suspended : Int → Lineage) (last : Int) : (r : Request) → r.Reply → Prop
  | .dueTasks _, x => ∀ due, x = .ok due → ∀ t ∈ due, ScheduledTask.IsKnown suspended last t
  | _, _ => True

namespace Work

theorem sound_goOn (s : SweepSummary) {rest : List ScheduledTask} (h : ∀ t ∈ rest, t.IsKnown suspended last) :
    (sweeping (.goOn s rest)).Sound m suspended last := by
  refine ⟨fun t ht => h t (SweepPhase.tasks_goOn s rest ▸ ht), fun t rest' s' run heq => ?_⟩
  cases rest <;> cases heq

theorem sound_follow {t : ScheduledTask} {rest : List ScheduledTask} (s : SweepSummary)
    {run : Program (Except String Unit)} (h : ∀ u ∈ t :: rest, u.IsKnown suspended last)
    (hrun : run.Meets (.atDepth m (suspended t.id).hops) fun _ => True) :
    (sweeping (.follow t rest s run)).Sound m suspended last := by
  refine ⟨fun u hu => h u (SweepPhase.tasks_follow t rest s run ▸ hu), fun t' rest' s' run' heq => ?_⟩
  cases run <;> cases heq <;> exact hrun

theorem sound_recording {t : ScheduledTask} {rest : List ScheduledTask} (s : SweepSummary) (failure : Option String)
    (h : ∀ u ∈ t :: rest, u.IsKnown suspended last) :
    (sweeping (.recording t rest s failure)).Sound m suspended last :=
  ⟨h, fun _ _ _ _ heq => by cases heq⟩

theorem Sound.mono {w : Work} (h : w.Sound m suspended last) {suspended' : Int → Lineage} {last' : Int}
    (hsame : ∀ id ≤ last, suspended' id = suspended id) (hle : last ≤ last') : w.Sound m suspended' last' := by
  cases w with
  | firing event contactId rest => exact h
  | forwarded run lineage rest => exact h
  | sweeping phase =>
    obtain ⟨htasks, hrun⟩ := h
    refine ⟨fun t ht => ?_, fun t rest s run heq => ?_⟩
    · obtain ⟨hid, hdepth⟩ := htasks t ht
      exact ⟨hid.trans hle, by rwa [hsame t.id hid]⟩
    · have hid := (htasks t (heq ▸ List.mem_cons_self)).le
      rw [hsame t.id hid]
      exact hrun t rest s run heq

theorem Sound.asks {settings : EngineSettings} {limit : Nat} {w : Work} {r : Request} {next : r.Reply → Work}
    (h : w.Sound m suspended last) (hask : w.ask? settings limit = some ⟨r, next⟩) :
    (Terms.atDepth m (w.lineage suspended).hops).asks r := by
  cases w with
  | firing event contactId rest =>
    cases rest with
    | ask r' k => cases hask; exact h.2.1
    | _ => cases hask
  | forwarded run lineage rest =>
    rw [Work.lineage, h.1.hops]
    cases rest with
    | ask r' k => cases hask; exact h.2.1
    | _ => cases hask
  | sweeping phase =>
    cases phase with
    | resuming t rest s run =>
      cases run with
      | ask r' k => cases hask; exact (h.2 t rest s _ rfl).1
      | _ => cases hask
    | ended result => cases hask
    | _ => cases hask; trivial

theorem Sound.next {settings : EngineSettings} {limit : Nat} {w : Work} {r : Request} {next : r.Reply → Work}
    (h : w.Sound settings.maxForwardDepth suspended last) (hask : w.ask? settings limit = some ⟨r, next⟩)
    (hhops : ∀ id, (suspended id).hops < 2 ^ 32) {x : r.Reply} (hx : r.ListsKnown suspended last x) :
    (next x).Sound settings.maxForwardDepth suspended last := by
  -- In each phase the answer leads to one next phase; a task that was won takes its depth from what is known of it.
  cases w with
  | firing event contactId rest =>
    cases rest with
    | ask r' k => cases hask; exact ⟨h.1, h.2.2 x trivial⟩
    | _ => cases hask
  | forwarded run lineage rest =>
    cases rest with
    | ask r' k => cases hask; exact ⟨h.1, h.2.2 x trivial⟩
    | _ => cases hask
  | sweeping phase =>
    obtain ⟨htasks, hrun⟩ := h
    cases phase with
    | starting => cases hask; exact ⟨List.forall_mem_nil _, fun _ _ _ _ heq => by cases heq⟩
    | listing now =>
      cases hask
      cases x with
      | ok due => exact sound_goOn _ (hx due rfl)
      | error e => exact ⟨List.forall_mem_nil _, fun _ _ _ _ heq => by cases heq⟩
    | claiming t rest s =>
      cases hask
      obtain ⟨ht, hrest⟩ := List.forall_mem_cons.mp htasks
      match x with
      | .ok true =>
        have hresume := t.resume_meets_atDepth settings limit ht.depth (hhops t.id)
        exact sound_follow s htasks (Program.meets_mono hresume fun _ _ => trivial)
      | .ok false => exact sound_goOn _ hrest
      | .error e => exact sound_recording s _ htasks
    | resuming t rest s run =>
      cases run with
      | ask r' k => cases hask; exact sound_follow s htasks ((hrun t rest s _ rfl).2 x trivial)
      | _ => cases hask
    | recording t rest s failure => cases hask; exact sound_goOn _ (List.forall_mem_cons.mp htasks).2
    | ended result => cases hask

end Work
end

theorem Request.IsFault.stored? {r : Request} {x : r.Reply} (h : r.IsFault x) : (Exchange.mk r x).stored? = none := by
  cases r with
  | insertTask t =>
    obtain ⟨e, rfl⟩ := h
    rfl
  | _ => rfl

theorem Request.IsFault.forwards? {r : Request} {x : r.Reply} (h : r.IsFault x) : r.forwards? = none := by
  cases r <;> first | rfl | exact h.elim

theorem Request.IsFault.listsKnown {r : Request} {x : r.Reply} (h : r.IsFault x) (suspended : Int → Lineage)
    (last : Int) : r.ListsKnown suspended last x := by
  cases r with
  | dueTasks now =>
    obtain ⟨e, rfl⟩ := h
    exact fun due hdue => by cases hdue
  | _ => trivial

namespace Service
variable {around : Surroundings} {r : Request} {x : r.Reply} {a b : Service}

theorem Answers.kept (h : Answers around r a x b) (hnone : (Exchange.mk r x).stored? = none) :
    b.db.lastTaskId = a.db.lastTaskId ∧ ∀ row ∈ b.db.tasks, ∃ old ∈ a.db.tasks, row = old.under r := by
  obtain ⟨now, hmoves⟩ := h.moves
  cases hmoves with
  | stay kept sub tasks last =>
    refine ⟨last, fun row hrow => ?_⟩
    rw [tasks] at hrow
    obtain ⟨old, hold, rfl⟩ := List.mem_map.mp hrow
    exact ⟨old, sub.subset hold, rfl⟩
  | add t asked tasks last =>
    subst asked
    obtain ⟨rfl, -⟩ | ⟨e, rfl, hlast, htasks⟩ := h.insert
    · cases hnone
    · exact ⟨hlast, fun row hrow => ⟨row, htasks ▸ hrow, rfl⟩⟩

theorem Answers.forwarded (h : Answers around r a x b) : b.forwarded = a.forwarded ++ r.forwards?.toList := by
  obtain ⟨clock, h⟩ := h
  cases r with
  | spawn run =>
    obtain ⟨network, seed, h⟩ := h
    cases h
    rfl
  | _ =>
    obtain hsame | ⟨run, hrun, -⟩ := h.forwarded
    · exact hsame.trans (List.append_nil _).symm
    · cases hrun

end Service

namespace Descent
variable {around : Surroundings} {m : Nat} {s s' : Descent}

structure Inv (m : Nat) (s : Descent) : Prop where
  hops : ∀ id, (s.suspended id).hops ≤ m
  rows : ∀ row ∈ s.service.db.tasks, row.id ≤ s.service.db.lastTaskId ∧ row.TellsDepth (s.suspended row.id).hops
  waiting : List.Forall₂ (ForwardedRun.DescendsBy m) s.service.forwarded s.waiting
  works : ∀ w ∈ s.works, w.Sound m s.suspended s.service.db.lastTaskId

theorem inv_of_fresh (h : s.IsFresh) : s.Inv m where
  hops id := by simp [h.suspended id, Lineage.hops]
  rows := by simp [h.tasks]
  waiting := by simp [h.forwarded, h.waiting]
  works := by simp [h.works]

theorem Inv.hops_lineage (hs : s.Inv m) {w : Work} (hw : w ∈ s.works) : (w.lineage s.suspended).hops ≤ m := by
  have hsound := hs.works w hw
  cases w with
  | firing event contactId rest => exact Nat.zero_le m
  | forwarded run lineage rest => exact hsound.1.hops ▸ hsound.1.depth
  | sweeping phase =>
    cases phase with
    | resuming t rest s run => exact hs.hops t.id
    | _ => exact Nat.zero_le m

theorem Inv.listsKnown (hs : s.Inv m) (hm : m < 2 ^ 32) {r : Request} {x : r.Reply} {b : Service}
    (h : Answers around r s.service x b) : r.ListsKnown s.suspended s.service.db.lastTaskId x := by
  cases r with
  | dueTasks now =>
    intro due hdue t ht
    obtain ⟨row, hrow, hread⟩ := mem_of_mapM (h.due.symm.trans hdue) t ht
    have hmem : row ∈ s.service.db.tasks := (List.mem_filter.mp (List.mem_mergeSort.mp hrow)).1
    obtain ⟨hle, htells⟩ := hs.rows row hmem
    rw [← TaskRow.read_id hread] at hle htells
    exact ⟨hle, htells.read ((hs.hops t.id).trans_lt hm) hread⟩
  | _ => trivial

/-- A run that is forwarded by `w` comes from the run under way. -/
theorem forall₂_forwards {lineage : Lineage} {r : Request} (h : (Terms.atDepth m lineage.hops).asks r) :
    List.Forall₂ (ForwardedRun.DescendsBy m) r.forwards?.toList
      (r.forwards?.toList.map fun _ => .forwarded lineage) := by
  cases r with
  | spawn run =>
    obtain ⟨hdepth, hle, hcontext⟩ := h
    exact .cons ⟨⟨lineage, rfl, hdepth⟩, hle, hcontext⟩ .nil
  | _ => exact .nil

section Inv
variable {b : Service} {works : List Work} {waiting : List Lineage}

/-- As long as no task is stored, tasks tell what they told. -/
theorem Inv.kept (hs : s.Inv m) {r : Request} (hlast : b.db.lastTaskId = s.service.db.lastTaskId)
    (hrows : ∀ row ∈ b.db.tasks, ∃ old ∈ s.service.db.tasks, row = old.under r)
    (hwaiting : List.Forall₂ (ForwardedRun.DescendsBy m) b.forwarded waiting)
    (hworks : ∀ w ∈ works, w.Sound m s.suspended s.service.db.lastTaskId) :
    Inv m ⟨b, works, waiting, s.suspended⟩ := by
  refine ⟨hs.hops, fun row hrow => ?_, hwaiting, fun w hw => hlast ▸ hworks w hw⟩
  obtain ⟨old, hold, rfl⟩ := hrows row hrow
  obtain ⟨hle, htells⟩ := hs.rows old hold
  rw [TaskRow.id_under, hlast]
  exact ⟨hle, htells.under r⟩

/-- A new task tells the depth of the run that stores it, and its id is a new one. -/
theorem Inv.stored (hs : s.Inv m) {lineage : Lineage} (hhops : lineage.hops ≤ m) {t : NewTask}
    (ht : t.context.TellsDepth lineage.hops) (hlast : b.db.lastTaskId = s.service.db.lastTaskId + 1) {now : Instant}
    (htasks : b.db.tasks = s.service.db.tasks ++ [TaskRow.ofNew (s.service.db.lastTaskId + 1) now t])
    (hwaiting : List.Forall₂ (ForwardedRun.DescendsBy m) b.forwarded waiting)
    (hworks : ∀ w ∈ works, w.Sound m s.suspended s.service.db.lastTaskId) :
    Inv m ⟨b, works, waiting, Function.update s.suspended (s.service.db.lastTaskId + 1) lineage⟩ := by
  let suspended := Function.update s.suspended (s.service.db.lastTaskId + 1) lineage
  have hsame : ∀ id : Int, id ≤ s.service.db.lastTaskId → suspended id = s.suspended id :=
    fun id hid => Function.update_of_ne (by omega) _ _
  have hnew : suspended (s.service.db.lastTaskId + 1) = lineage := Function.update_self ..
  have hle : (s.service.db.lastTaskId : Int) ≤ b.db.lastTaskId := by omega
  have hlimit (id : Int) : (suspended id).hops ≤ m := by
    by_cases hid : id = s.service.db.lastTaskId + 1
    · rwa [hid, hnew]
    · exact (congrArg Lineage.hops (Function.update_of_ne hid _ _)).trans_le (hs.hops id)
  have hrows : ∀ row ∈ b.db.tasks, row.id ≤ b.db.lastTaskId ∧ row.TellsDepth (suspended row.id).hops := by
    intro row hrow
    rw [htasks] at hrow
    obtain hrow | hrow := List.mem_append.mp hrow
    · obtain ⟨hid, htells⟩ := hs.rows row hrow
      exact ⟨hid.trans hle, by rwa [hsame row.id hid]⟩
    · cases List.mem_singleton.mp hrow
      refine ⟨by simp [TaskRow.ofNew, hlast], ?_⟩
      rw [TaskRow.ofNew, hnew]
      exact ⟨t.context, rfl, ht⟩
  exact ⟨hlimit, hrows, hwaiting, fun w hw => (hworks w hw).mono hsame hle⟩

end Inv

theorem after_of_none {i : Nat} {w next : Work} {e : Exchange} {b : Service} (h : e.stored? = none) :
    s.after i w next e b = ⟨b, s.works.set i next,
      s.waiting ++ e.request.forwards?.toList.map fun _ => .forwarded (w.lineage s.suspended), s.suspended⟩ := by
  rw [after, h]

theorem after_of_stored {i : Nat} {w next : Work} {t : NewTask} {id : Int} {b : Service} :
    s.after i w next ⟨.insertTask t, .ok id⟩ b =
      ⟨b, s.works.set i next, s.waiting, Function.update s.suspended id (w.lineage s.suspended)⟩ :=
  congrArg (Descent.mk b (s.works.set i next) · _) (List.append_nil s.waiting)

theorem Inv.answered (hm : around.settings.maxForwardDepth < 2 ^ 32) (hs : s.Inv around.settings.maxForwardDepth)
    {i : Nat} {w : Work} {r : Request} {x : r.Reply} {next : r.Reply → Work} {b : Service} (hw : w ∈ s.works)
    (hask : w.ask? around.settings around.limit = some ⟨r, next⟩) (h : Answers around r s.service x b) :
    (s.after i w (next x) ⟨r, x⟩ b).Inv around.settings.maxForwardDepth := by
  have hhops (id : Int) : (s.suspended id).hops < 2 ^ 32 := (hs.hops id).trans_lt hm
  have hasks := (hs.works w hw).asks hask
  have hnext := (hs.works w hw).next hask hhops (hs.listsKnown hm h)
  have hwaiting : List.Forall₂ (ForwardedRun.DescendsBy around.settings.maxForwardDepth) b.forwarded
      (s.waiting ++ r.forwards?.toList.map fun _ => .forwarded (w.lineage s.suspended)) := by
    rw [h.forwarded]
    exact List.rel_append hs.waiting (forall₂_forwards hasks)
  have hworks : ∀ v ∈ s.works.set i (next x),
      v.Sound around.settings.maxForwardDepth s.suspended s.service.db.lastTaskId :=
    fun v hv => (List.mem_or_eq_of_mem_set hv).elim (hs.works v) fun heq => heq ▸ hnext
  cases hcase : (Exchange.mk r x).stored? with
  | none =>
    obtain ⟨hlast, hrows⟩ := h.kept hcase
    rw [after_of_none hcase]
    exact hs.kept hlast hrows hwaiting hworks
  | some stored =>
    obtain ⟨t, id⟩ := stored
    obtain ⟨rfl, hx⟩ := Exchange.mk.inj (Exchange.stored?_eq_some hcase)
    cases hx
    obtain ⟨hid, hlast, now, htasks⟩ | ⟨e, herror, -⟩ := h.insert
    · cases hid
      rw [after_of_stored]
      exact hs.stored (hs.hops_lineage hw) hasks hlast htasks ((List.append_nil s.waiting) ▸ hwaiting) hworks
    · cases herror

theorem Inv.failed (hm : around.settings.maxForwardDepth < 2 ^ 32) (hs : s.Inv around.settings.maxForwardDepth)
    {i : Nat} {w : Work} {r : Request} {x : r.Reply} {next : r.Reply → Work} (hw : w ∈ s.works)
    (hask : w.ask? around.settings around.limit = some ⟨r, next⟩) (h : r.IsFault x) :
    (s.after i w (next x) ⟨r, x⟩ s.service).Inv around.settings.maxForwardDepth := by
  have hhops (id : Int) : (s.suspended id).hops < 2 ^ 32 := (hs.hops id).trans_lt hm
  have hnext := (hs.works w hw).next hask hhops (h.listsKnown _ _)
  rw [after_of_none h.stored?, h.forwards?]
  refine hs.kept (r := .now) rfl (fun row hrow => ⟨row, hrow, rfl⟩) ((List.append_nil s.waiting).symm ▸ hs.waiting) ?_
  exact fun v hv => (List.mem_or_eq_of_mem_set hv).elim (hs.works v) fun heq => heq ▸ hnext

theorem Inv.step (hm : around.settings.maxForwardDepth < 2 ^ 32) (hs : s.Inv around.settings.maxForwardDepth)
    (h : Step around s s') : s'.Inv around.settings.maxForwardDepth := by
  cases h with
  | @fire event ordered contactId scope =>
    refine ⟨hs.hops, hs.rows, hs.waiting, ?_⟩
    have hfire := fire_meets_atDepth around.settings around.limit ordered contactId scope
    refine List.forall_mem_append.mpr ⟨hs.works, List.forall_mem_singleton.mpr ⟨?_, ?_⟩⟩
    · exact (event.context_tellsDepth ordered contactId).forwardDepth_eq (Nat.two_pow_pos 32)
    · exact Program.meets_mono hfire fun _ _ => trivial
  | sweep =>
    refine ⟨hs.hops, hs.rows, hs.waiting, ?_⟩
    refine List.forall_mem_append.mpr ⟨hs.works, List.forall_mem_singleton.mpr ⟨List.forall_mem_nil _, ?_⟩⟩
    exact fun _ _ _ _ heq => by cases heq
  | forwarded waits waiting =>
    have hwaiting := hs.waiting
    rw [waits, waiting] at hwaiting
    obtain ⟨hrun, hrest⟩ := List.forall₂_cons.mp hwaiting
    refine ⟨hs.hops, hs.rows, hrest, ?_⟩
    refine List.forall_mem_append.mpr ⟨hs.works, List.forall_mem_singleton.mpr ⟨hrun, ?_⟩⟩
    exact ForwardedRun.execute_meets_atDepth around.settings around.limit hrun.context
  | answered i under asks answers => exact hs.answered hm (List.mem_of_getElem? under) asks answers
  | failed i under asks fault => exact hs.failed hm (List.mem_of_getElem? under) asks fault
  | @elsewhere service r x stores forwards answers =>
    have hstored : (Exchange.mk r x).stored? = none := by
      cases r with
      | insertTask t => exact absurd rfl (stores t)
      | _ => rfl
    have hforwards : r.forwards? = none := by
      cases r with
      | spawn run => exact absurd rfl (forwards run)
      | _ => rfl
    have hforwarded := answers.forwarded
    rw [hforwards, Option.toList_none, List.append_nil] at hforwarded
    obtain ⟨hlast, hrows⟩ := answers.kept hstored
    exact hs.kept hlast hrows (hforwarded ▸ hs.waiting) hs.works

theorem Inv.run (hm : around.settings.maxForwardDepth < 2 ^ 32) (hs : s.Inv around.settings.maxForwardDepth)
    (h : Run around s s') : s'.Inv around.settings.maxForwardDepth := by
  induction h with
  | refl => exact hs
  | tail _ hstep ih => exact ih.step hm hstep

end Descent

section
variable {settings : EngineSettings} {limit m : Nat} {suspended : Int → Lineage} {last : Int} {w : Work}

theorem Work.Sound.depth_eq (h : w.Sound m suspended last) (hhops : ∀ id, (suspended id).hops < 2 ^ 32) {d : Nat}
    (hd : w.depth? = some d) : d = (w.lineage suspended).hops := by
  cases w with
  | firing event contactId rest => cases hd; exact h.1
  | forwarded run lineage rest => cases hd; exact h.1.hops.symm
  | sweeping phase =>
    cases phase with
    | resuming t rest s run =>
      cases hd
      exact (h.1 t List.mem_cons_self).depth.forwardDepth_eq (hhops t.id)
    | _ => cases hd

theorem Work.exists_depth {r : Request} {next : r.Reply → Work} (hask : w.ask? settings limit = some ⟨r, next⟩)
    (h : (∃ t, r = .insertTask t) ∨ ∃ run, r = .spawn run) : ∃ d, w.depth? = some d := by
  cases w with
  | firing event contactId rest => exact ⟨_, rfl⟩
  | forwarded run lineage rest => exact ⟨_, rfl⟩
  | sweeping phase =>
    cases phase with
    | resuming t rest s run => exact ⟨_, rfl⟩
    | ended result => cases hask
    | _ =>
      cases hask
      obtain ⟨t, ht⟩ | ⟨run, hrun⟩ := h
      · cases ht
      · cases hrun

end

namespace Descent

/-- Each run is as deep as there are forwards between it and its event, and none is deeper than the limit. -/
structure KeepsDepths (around : Surroundings) (s : Descent) : Prop where
  runs : ∀ w ∈ s.works, ∀ d, w.depth? = some d →
    d = (w.lineage s.suspended).hops ∧ d ≤ around.settings.maxForwardDepth ∧ d + 1 < 2 ^ 32
  fired : ∀ event contactId rest, .firing event contactId rest ∈ s.works → forwardDepth (event.context contactId) = 0
  forwarded : ∀ run lineage rest, .forwarded run lineage rest ∈ s.works →
    ∃ parent, lineage = .forwarded parent ∧ run.depth = parent.hops + 1
  resumed : ∀ t rest sum run, .sweeping (.resuming t rest sum run) ∈ s.works →
    forwardDepth t.context = (s.suspended t.id).hops
  forwards : ∀ w ∈ s.works, ∀ run next, w.ask? around.settings around.limit = some ⟨.spawn run, next⟩ →
    ∃ d, w.depth? = some d ∧ run.depth = d + 1 ∧ run.depth ≤ around.settings.maxForwardDepth
  stores : ∀ w ∈ s.works, ∀ t next, w.ask? around.settings around.limit = some ⟨.insertTask t, next⟩ →
    ∃ d, w.depth? = some d ∧ forwardDepth t.context = d
  tasks : ∀ row ∈ s.service.db.tasks, ∀ t, row.read = .ok t → forwardDepth t.context = (s.suspended t.id).hops
  waiting : List.Forall₂ (fun run lineage => ∃ parent, lineage = .forwarded parent ∧ run.depth = parent.hops + 1)
    s.service.forwarded s.waiting
  /-- No chain of forwards is longer than the limit. -/
  chains : ∀ lineage, (∃ w ∈ s.works, lineage = w.lineage s.suspended) ∨ lineage ∈ s.waiting ∨
    (∃ id, lineage = s.suspended id) → lineage.hops ≤ around.settings.maxForwardDepth

variable {around : Surroundings} {s s' : Descent}

theorem Inv.keepsDepths (hm : around.settings.maxForwardDepth < 2 ^ 32 - 1)
    (hs : s.Inv around.settings.maxForwardDepth) : s.KeepsDepths around := by
  have hhops (id : Int) : (s.suspended id).hops < 2 ^ 32 := (hs.hops id).trans_lt (by omega)
  have hdepth {w : Work} (hw : w ∈ s.works) {d : Nat} (hd : w.depth? = some d) : d = (w.lineage s.suspended).hops :=
    (hs.works w hw).depth_eq hhops hd
  refine ⟨fun w hw d hd => ?_, fun event contactId rest hw => (hs.works _ hw).1,
    fun run lineage rest hw => (hs.works _ hw).1.parent, fun t rest sum run hw => hdepth hw rfl,
    fun w hw run next hask => ?_, fun w hw t next hask => ?_, fun row hrow t hread => ?_, ?_, ?_⟩
  · have heq := hdepth hw hd
    have hle := hs.hops_lineage hw
    exact ⟨heq, by omega, by omega⟩
  · obtain ⟨d, hd⟩ := Work.exists_depth hask (.inr ⟨run, rfl⟩)
    obtain ⟨hnext, hle, -⟩ := (hs.works w hw).asks hask
    exact ⟨d, hd, by rw [hnext, hdepth hw hd], hle⟩
  · obtain ⟨d, hd⟩ := Work.exists_depth hask (.inl ⟨t, rfl⟩)
    have htells : t.context.TellsDepth (w.lineage s.suspended).hops := (hs.works w hw).asks hask
    have hle := hs.hops_lineage hw
    exact ⟨d, hd, by rw [htells.forwardDepth_eq (by omega), hdepth hw hd]⟩
  · rw [TaskRow.read_id hread]
    exact ((hs.rows row hrow).2.read (hhops row.id) hread).forwardDepth_eq (hhops row.id)
  · exact hs.waiting.imp fun run lineage h => h.parent
  · rintro lineage (⟨w, hw, rfl⟩ | hmem | ⟨id, rfl⟩)
    · exact hs.hops_lineage hw
    · obtain ⟨n, rfl⟩ := List.get_of_mem hmem
      have hn : n < s.service.forwarded.length := hs.waiting.length_eq.symm ▸ n.isLt
      have hrun := hs.waiting.get hn n.isLt
      exact hrun.hops ▸ hrun.depth
    · exact hs.hops id

/-- Whatever is fired, forwarded, suspended and resumed in whatever order, runs keep their depths and the limit. -/
theorem keepsDepths_of_run (hm : around.settings.maxForwardDepth < 2 ^ 32 - 1) (hs : s.IsFresh)
    (h : Run around s s') : s'.KeepsDepths around :=
  (Inv.run (by omega) (inv_of_fresh hs) h).keepsDepths hm

inductive Turn where
  | sweep
  | forward
  | answer (i : Nat) (clock : Instant)

section Playing
variable (around)

def turn (s : Descent) : Turn → Descent
  | .sweep => { s with works := s.works ++ [.sweeping .starting] }
  | .forward =>
    match s.service.forwarded, s.waiting with
    | run :: runs, lineage :: lineages =>
      { s with
        service := { s.service with forwarded := runs }
        works := s.works ++ [.forwarded run lineage (run.execute around.settings around.limit)]
        waiting := lineages }
    | _, _ => s
  | .answer i clock =>
    match s.works[i]? with
    | none => s
    | some w =>
      match w.ask? around.settings around.limit with
      | none => s
      | some ⟨r, next⟩ =>
        let (x, service) := answer around r { s.service with clock := clock }
        s.after i w (next x) ⟨r, x⟩ service

def fired (s : Descent) (event : Event) (contactId : Int) : Descent :=
  { s with works := s.works ++
    [.firing event contactId (fire around.settings around.limit event contactId .contactOwner).run] }

variable {around}

theorem run_turn (s : Descent) (t : Turn) : Run around s (s.turn around t) := by
  cases t with
  | sweep => exact .single .sweep
  | forward =>
    rw [turn]
    split
    · rename_i waits waiting
      exact .single (.forwarded waits waiting)
    · exact .refl
  | answer i clock =>
    rw [turn]
    split
    · exact .refl
    · rename_i w under
      split
      · exact .refl
      · rename_i r next asks
        exact .single (.answered i under asks ⟨clock, around.network, s.service.seed, rfl⟩)

theorem run_turns (s : Descent) (turns : List Turn) : Run around s (turns.foldl (turn around) s) := by
  induction turns generalizing s with
  | nil => exact .refl
  | cons t turns ih => exact (run_turn s t).trans (ih _)

end Playing

def echo : Automation :=
  ⟨default, default, "echo", .active,
    [⟨"t", .trigger (.webhook "hook" false none), none⟩, ⟨"w", .action (.wait 1 .minutes), none⟩,
      ⟨"f", .action (.forwardAutomation (default : Uuid).text), none⟩],
    [⟨none, "t", "w", none⟩, ⟨none, "w", "f", none⟩], ⟨1717408800, 0⟩, true, false, []⟩

/-- A body that pretends to have been forwarded. -/
def forgery : Event := .webhook (.obj [("forwardDepth", .int 7)])

def stillness : Descent := ⟨.holding (.trial echo 0), [], [], fun _ => .fired⟩

-- The run of the event is suspended at ten. The sweep of eleven resumes it, so that it forwards; the forwarded run is
-- suspended in turn. The sweep of noon resumes that one, which forwards once more, and is answered no further.
def echoing : List Turn :=
  let answers (n i : Nat) (clock : Instant) : List Turn := List.replicate n (.answer i clock)
  let ten : Instant := ⟨1717408800, 0⟩
  let eleven : Instant := ⟨1717412400, 0⟩
  let noon : Instant := ⟨1717416000, 0⟩
  answers 6 0 ten ++ [.sweep] ++ answers 10 1 eleven ++ [.forward] ++ answers 3 2 eleven ++ [.sweep] ++ answers 8 3 noon ++
    [.forward] ++ answers 2 4 noon

def echoed : Descent := echoing.foldl (turn .offline) (stillness.fired .offline forgery 1)

/-- Two forwards and three suspensions after the event, with a sweep before each forward. -/
theorem keepsDepths_of_echoing : (stillness.IsFresh ∧ Run .offline stillness echoed) ∧ echoed.KeepsDepths .offline ∧
    echoed.works.map Work.depth? = [some 0, none, some 1, some 1, some 2] ∧
    echoed.works.map (fun w => (w.lineage echoed.suspended).hops) = [0, 0, 1, 1, 2] ∧
    echoed.service.db.tasks.map (fun row => (row.status, (Json.parse? row.context).map forwardDepth)) =
      [("processed", some 0), ("processing", some 1), ("pending", some 2)] := by
  have hfresh : stillness.IsFresh := ⟨rfl, rfl, rfl, rfl, fun _ => rfl⟩
  have hordered : forgery.IsOrdered := ⟨.cons (List.forall_mem_nil _) .nil, trivial, trivial⟩
  have hfire : Run .offline stillness (stillness.fired .offline forgery 1) := .single (.fire hordered 1 .contactOwner)
  have hrun : Run .offline stillness echoed := hfire.trans (run_turns _ echoing)
  exact ⟨⟨hfresh, hrun⟩, keepsDepths_of_run (by decide) hfresh hrun, by decide +kernel⟩

end Descent
end Outreach
