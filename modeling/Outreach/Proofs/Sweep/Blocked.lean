import Outreach.Proofs.Service.Site
import Outreach.Proofs.Tasks.Due
import Outreach.Proofs.Tasks.Suspension

/-! What keeps a sweep from starting. A row that cannot be read fails the listing of all that is due with it, and
such rows come from bodies that nest to the very limit, from numbers past the floating range and from waits that end
after the year 9999. -/
namespace Outreach
open Service QueuedTask

def Service.swept (around : Surroundings) (s : Service) : Option (Except SweepError SweepSummary × Service) :=
  (sweep around.settings around.limit).run.run (answer around) s

variable {around : Surroundings} {s : Service}

/-- A sweep reads the clock and then the list of what is due. -/
theorem Service.swept_eq (s : Service) : s.swept around =
    ((SweepPhase.afterListing (s.db.dueTasks s.clock)).1.program around.settings around.limit).run (answer around)
      s.tick.2 := by
  have hclock : s.swept around = ((SweepPhase.listing s.tick.1).program around.settings around.limit).run
      (answer around) s.tick.2 := rfl
  rw [hclock, SweepPhase.program_eq_ask (φ := .listing s.tick.1) rfl, tick_fst, ← tick_db s]
  rfl

theorem Service.swept_of_error {e : RepositoryError} (h : s.db.dueTasks s.clock = .error e) :
    s.swept around = some (.error ⟨e⟩, s.tick.2) := by
  rw [swept_eq, h]
  rfl

theorem Service.swept_ne_error {due : List ScheduledTask} (h : s.db.dueTasks s.clock = .ok due) (e : SweepError)
    (s' : Service) : s.swept around ≠ some (.error e, s') := by
  rw [swept_eq, h, SweepPhase.afterListing, SweepPhase.program_goOn]
  have hsettling : SweepPhase.settling around.settings around.limit ⟨0, 0, 0⟩ due =
      ScheduledTask.settleAll around.settings around.limit ⟨0, 0, 0⟩ due >>= fun summary =>
        .done (.ok summary) := rfl
  rw [hsettling, Program.run_bind]
  intro hrun
  obtain ⟨x, -, hx⟩ := Option.bind_eq_some_iff.mp hrun
  cases hx

theorem QueuedTask.task?_eq {q : List QueuedTask} {db : Database} (hdb : db.tasks = q.map row) (hids : db.TaskIds)
    {e : QueuedTask} (he : e ∈ q) : db.task? e.id = e.row.read.map some := by
  have hmem : e.row ∈ db.tasks := hdb ▸ List.mem_map_of_mem he
  have hfind : db.tasks.find? (·.id == e.id) = some e.row := by
    obtain ⟨found, hfound⟩ := Option.isSome_iff_exists.mp
      (List.find?_isSome (p := fun row => row.id == e.id) |>.mpr ⟨e.row, hmem, beq_self_eq_true e.id⟩)
    have hid : found.id = e.id := by simpa using List.find?_some hfound
    rw [hfound, hids.unique (List.mem_of_find?_eq_some hfound) hmem hid]
  rw [Database.task?, hfind]
  rfl

structure AcceptedBody where
  body : Json
  contactId : Int
  accepted : ∃ text, Json.parse? text = some body
  contact : -(2 ^ 63) ≤ contactId ∧ contactId < 2 ^ 63

namespace AcceptedBody

/-- The runs that come of it, forwarded and resumed ones among them, store no tasks but their own. -/
structure RunsOwn (settings : EngineSettings) (limit : Nat) (w : AcceptedBody) : Prop where
  fired : ∀ scope, Attempt.Meets (.startedBy w.body w.contactId) (fun _ => True)
    (fire settings limit (.webhook w.body) w.contactId scope)
  forwarded : ∀ run : ForwardedRun,
    (RunFrame.mk run.automation run.contact run.eventContext run.connection run.depth).StartedBy w.body w.contactId →
      (run.execute settings limit).Meets (.startedBy w.body w.contactId) fun _ => True
  resumed : ∀ (f : RunFrame) (next : String) (u : Instant) (t : ScheduledTask), f.StartedBy w.body w.contactId →
    t.context = (f.taskAt next u).context →
      Attempt.Meets (.startedBy w.body w.contactId) (fun _ => True) (t.resume settings limit)

theorem runsOwn {settings : EngineSettings} (hmax : settings.maxForwardDepth < 2 ^ 32) (limit : Nat)
    (w : AcceptedBody) : w.RunsOwn settings limit where
  fired := fire_webhook_meets hmax limit w.contact
  forwarded _ := forwarded_meets hmax limit
  resumed _ _ _ _ hf := resume_meets_startedBy hmax limit hf

end AcceptedBody

theorem swept_error_iff {q : List QueuedTask} (hdb : s.db.tasks = q.map row) (hq : ∀ e ∈ q, e.IsProper) :
    (∃ e s', s.swept around = some (.error e, s')) ↔ ∃ e ∈ textDue s.clock q, ¬ e.IsLegible := by
  constructor
  · rintro ⟨err, s', hswept⟩
    by_contra hnone
    have hall : ∀ e ∈ textDue s.clock q, e.IsLegible := fun e he => by_contra fun hnot => hnone ⟨e, he, hnot⟩
    exact swept_ne_error ((dueTasks_eq_ok hdb hq).mpr ⟨hall, rfl⟩) err s' hswept
  · rintro ⟨e, he, hnot⟩
    cases hdue : s.db.dueTasks s.clock with
    | error err => exact ⟨⟨err⟩, _, swept_of_error hdue⟩
    | ok due => exact absurd (((dueTasks_eq_ok hdb hq).mp hdue).1 e he) hnot

theorem swept_error_db {e : SweepError} {s' : Service} (h : s.swept around = some (.error e, s')) :
    s'.db = s.db := by
  cases hdue : s.db.dueTasks s.clock with
  | error err =>
    rw [swept_of_error hdue] at h
    cases h
    exact tick_db s
  | ok due => exact absurd h (swept_ne_error hdue e s')

/-- Of each body that was accepted: its runs store no tasks but their own, and the row of such a task is read as the
very task, or at all, exactly under these conditions on the body and the years. In every state that a site comes to,
a sweep fails exactly when a row that is due by its text cannot be read, and leaves all as it is; otherwise it lists
all that is due. -/
theorem blocked_iff (hmax : around.settings.maxForwardDepth < 2 ^ 32) :
    (∀ w : AcceptedBody, w.RunsOwn around.settings around.limit ∧
      ∀ (f : RunFrame) (id : Int) (now t : Instant) (next : String), f.StartedBy w.body w.contactId →
        now.Ordinary → t.Ordinary →
          ((TaskRow.ofNew id now (f.taskAt next t)).read = .ok (f.queued id now next t).view ↔
            now.IsPlain ∧ t.IsPlain ∧ w.body.depth ≤ 126 ∧ ∀ n ∈ w.body.numbers, n.reread? = some n) ∧
          ((∃ shown, (TaskRow.ofNew id now (f.taskAt next t)).read = .ok shown) ↔
            now.IsPlain ∧ t.IsPlain ∧ w.body.depth ≤ 126 ∧ ∀ n ∈ w.body.numbers, n.reread?.isSome = true)) ∧
    ∀ s₀ s : Site, s₀.IsFresh → Site.Run around s₀ s →
      ∃ q : List QueuedTask, s.service.db.tasks = q.map row ∧ (∀ e ∈ q, e.IsProper) ∧
        (∀ e ∈ q, s.service.db.task? e.id = e.row.read.map some) ∧
        ((∃ e s', s.service.swept around = some (.error e, s')) ↔ ∃ e ∈ textDue s.service.clock q, ¬ e.IsLegible) ∧
        (∀ e s', s.service.swept around = some (.error e, s') → s'.db = s.service.db) ∧
        ∀ due, s.service.db.dueTasks s.service.clock = .ok due → due = (textDue s.service.clock q).map shown := by
  refine ⟨fun w => ⟨w.runsOwn hmax around.limit, fun f id now t next hf hnow ht => ?_⟩, fun s₀ s hfresh hrun => ?_⟩
  · obtain ⟨text, hparse⟩ := w.accepted
    have hpayload := Json.parse?_canonical hparse
    refine ⟨RunFrame.read_queued hf hpayload hnow ht, ?_⟩
    rw [← RunFrame.queued_isLegible hf, ← RunFrame.row_queued]
    exact reads_iff (RunFrame.queued_isProper hf hpayload hnow ht)
  · have hs := (Site.inv_of_fresh hfresh).run hrun
    obtain ⟨q, hdb, hq⟩ := exists_queue hs.queued
    refine ⟨q, hdb, hq, fun e he => task?_eq hdb hs.ids he, swept_error_iff hdb hq, fun e s' => swept_error_db, ?_⟩
    exact fun due hdue => ((dueTasks_eq_ok hdb hq).mp hdue).2

def phoneBody : Json := .obj [("phone", .str "5581999900001")]

theorem phoneBody_depth : phoneBody.depth = 1 := by simp [phoneBody, Json.depth, Json.membersDepth]

theorem phoneBody_numbers : phoneBody.numbers = [] := by simp [phoneBody, Json.numbers, Json.membersNumbers]

theorem phoneBody_reading : phoneBody.reading? = some phoneBody :=
  Json.reading?_eq_self.mpr (by simp [phoneBody_depth, phoneBody_numbers, Json.depthLimit])

def called : AcceptedBody where
  body := phoneBody
  contactId := 1
  accepted := by
    have hcanonical : phoneBody.Canonical := ⟨by simp [Keyed.Ascending], trivial, trivial⟩
    exact ⟨phoneBody.text, (Json.parse?_text hcanonical).trans phoneBody_reading⟩
  contact := by decide

def longWait : Automation :=
  ⟨default, default, "welcome", .active,
    [⟨"t", .trigger (.webhook "hook" false none), none⟩, ⟨"w", .action (.wait 3000000 .days), none⟩],
    [⟨none, "t", "w", none⟩, ⟨none, "w", "w", none⟩], morning, true, false, []⟩

def ana : Contact := ⟨1, default, "Ana", "5581999900001", [], none, false, false, none, morning, []⟩

def line : Connection := ⟨default, default, "main", "1", "2", "key", morning⟩

def quietSite : Site where
  service := .new ⟨[.ofAutomation longWait], [.ofContact ana], [.ofConnection line], [], [], 1, 0⟩ morning 0
  running := []

theorem quietSite_isFresh : quietSite.IsFresh := ⟨rfl, rfl, rfl⟩

def calledSite : Site :=
  let call : Program Unit := do
    let _ ← (Intake.handle Surroundings.offline.settings Surroundings.offline.limit "hook" called.body).run
  Site.play .offline ⟨quietSite.service, [call]⟩ (List.replicate 12 0)

theorem run_calledSite : Site.Run .offline quietSite calledSite := by
  obtain ⟨text, hparse⟩ := called.accepted
  exact .head (.begin (.intake "hook" hparse)) (Site.run_play _ _)

def suspendedFrame : RunFrame := ⟨longWait, ana, (Event.webhook called.body).context 1, line, 0⟩

theorem suspendedFrame_startedBy : suspendedFrame.StartedBy called.body called.contactId where
  context := ⟨0, by rw [suspendedContext_webhook, suspendedFrame, Event.context_webhook]; rfl⟩
  contact := called.contact
  depth := by decide

def daysLater (days : Nat) : Instant := ⟨morning.seconds + days * 86400, 0⟩

theorem daysLater_ordinary {days : Nat} (h : days ≤ 3000000) : (daysLater days).Ordinary :=
  Instant.ordinary_of_addSeconds? morning_ordinary (addSeconds?_morning h)

/-- After a week the task can be read, after three million days it cannot; and the site with it is as is told of all
that a site comes to. -/
theorem blocked_of_wait : Surroundings.offline.settings.maxForwardDepth < 2 ^ 32 ∧
    (∃ shown, (TaskRow.ofNew 1 morning (suspendedFrame.taskAt "w" (daysLater 7))).read = .ok shown) ∧
    (¬ ∃ shown, (TaskRow.ofNew 1 morning (suspendedFrame.taskAt "w" (daysLater 3000000))).read = .ok shown) ∧
    quietSite.IsFresh ∧ Site.Run .offline quietSite calledSite ∧
    ∃ q : List QueuedTask, calledSite.service.db.tasks = q.map row ∧
      ((∃ e s', calledSite.service.swept .offline = some (.error e, s')) ↔
        ∃ e ∈ textDue calledSite.service.clock q, ¬ e.IsLegible) := by
  have hmax : Surroundings.offline.settings.maxForwardDepth < 2 ^ 32 := by decide
  obtain ⟨hbodies, hsites⟩ := blocked_iff hmax
  have hreads (days : Nat) (h : days ≤ 3000000) :=
    ((hbodies called).2 suspendedFrame 1 morning (daysLater days) "w" suspendedFrame_startedBy morning_ordinary
      (daysLater_ordinary h)).2
  have hweek : (daysLater 7).IsPlain := by decide
  have hfar : ¬ (daysLater 3000000).IsPlain := by decide
  obtain ⟨q, hq, -, -, hswept, -⟩ := hsites quietSite calledSite quietSite_isFresh run_calledSite
  refine ⟨hmax, (hreads 7 (by omega)).mpr ⟨morning_isPlain, hweek, ?_, ?_⟩,
    fun h => hfar ((hreads 3000000 le_rfl).mp h).2.1, quietSite_isFresh, run_calledSite, q, hq, hswept⟩
  · exact phoneBody_depth.trans_le (by decide)
  · exact phoneBody_numbers ▸ List.forall_mem_nil _

/-- One call of a webhook, and no sweep starts any more. -/
theorem blocked_after_call : quietSite.IsFresh ∧ Site.Run .offline quietSite calledSite ∧
    calledSite.service.db.tasks.map (·.executeAt) = ["+10238-02-22T10:00:00.000000Z"] ∧
    calledSite.service.swept .offline = some (.error ⟨.query "invalid datetime"⟩, calledSite.service.tick.2) := by
  obtain ⟨htasks, hlisting⟩ : calledSite.service.db.tasks.map (·.executeAt) = ["+10238-02-22T10:00:00.000000Z"] ∧
      (calledSite.service.db.dueTasks calledSite.service.clock).map (fun _ => ()) =
        .error (.query "invalid datetime") := by decide +kernel
  refine ⟨quietSite_isFresh, run_calledSite, htasks, swept_of_error ?_⟩
  cases hdue : calledSite.service.db.dueTasks calledSite.service.clock with
  | error e =>
    rw [hdue] at hlisting
    cases hlisting
    rfl
  | ok due =>
    rw [hdue] at hlisting
    cases hlisting

end Outreach
