import Outreach.Engine.Inbox
import Outreach.Engine.Intake
import Outreach.Proofs.Engine.Run
import Outreach.Proofs.Json.Reading
import Outreach.Proofs.Sweep.Phase
import Outreach.Proofs.Time.Text

/-! The event contexts that runs carry with them. Whatever starts a run, its context has its members in order, and
a task that suspends it is for an instant that a clock can show. -/
namespace Outreach

def Terms.engine : Terms where
  asks
    | .insertTask t => t.executeAt.Ordinary ∧ t.context.Canonical
    | .spawn r => r.eventContext.Canonical
    | _ => True
  answers
    | .now, now => Instant.Ordinary now
    | .dueTasks _, x => ∀ due, x = .ok due → ∀ t ∈ due, t.context.Canonical
    | _, _ => True

theorem Terms.engine_plain {r : Request} (h : r.IsPlain) : Terms.engine.asks r := by
  cases r <;> first | exact trivial | exact h.elim

def Event.IsOrdered : Event → Prop
  | .webhook payload => payload.Canonical
  | _ => True

theorem canonical_pair {k l : String} (h : k < l) (s t : String) :
    (Json.obj [(k, .str s), (l, .str t)]).Canonical :=
  ⟨Keyed.ascending_cons.mpr ⟨by simpa using h, Keyed.ascending_cons.mpr ⟨by simp, .nil⟩⟩, trivial, trivial, trivial⟩

theorem Event.context_canonical {e : Event} (h : e.IsOrdered) (contactId : Int) :
    (e.context contactId).Canonical := by
  refine ⟨Keyed.ofList_ascending _, Json.membersCanonical_iff.mpr fun m hm => ?_⟩
  obtain rfl | hm := List.mem_cons.mp (Keyed.mem_ofList hm)
  · trivial
  · cases e with
    | contactCreated => simp [details] at hm
    | tagAdded tag =>
      obtain rfl : m = _ := by simpa [details] using hm
      trivial
    | crmStageChanged board stage =>
      cases board with
      | none =>
        obtain rfl : m = _ := by simpa [details] using hm
        exact canonical_pair (by decide) _ _
      | some b =>
        obtain rfl | rfl : m = _ ∨ m = _ := by simpa [details] using hm
        · exact canonical_pair (by decide) _ _
        · exact canonical_pair (by decide) _ _
    | contextMessage text =>
      obtain rfl : m = _ := by simpa [details] using hm
      trivial
    | webhook payload =>
      obtain rfl : m = _ := by simpa [details] using hm
      exact h

theorem suspendedContext_canonical {j : Json} (h : j.Canonical) (depth : Nat) :
    (suspendedContext j depth).Canonical := by
  cases j with
  | obj ms =>
    obtain ⟨hms, hmembers⟩ := h
    rw [Json.membersCanonical_iff] at hmembers
    by_cases hd : 0 < depth
    · rw [suspendedContext, if_pos hd]
      refine ⟨Keyed.put_ascending hms, Json.membersCanonical_iff.mpr fun m hm => ?_⟩
      obtain rfl | hm := Keyed.mem_put hm
      · trivial
      · exact hmembers m hm
    · rw [suspendedContext, if_neg hd]
      refine ⟨Keyed.erase_ascending hms _, Json.membersCanonical_iff.mpr fun m hm => ?_⟩
      exact hmembers m (List.mem_of_mem_filter hm)
  | _ => exact h

theorem get?_suspendedContext (ms : List (String × Json)) (depth : Nat) :
    (suspendedContext (.obj ms) depth).get? forwardDepthKey = if 0 < depth then some (.nat depth) else none := by
  rw [suspendedContext, Json.get?]
  split
  · rw [Keyed.get?_put, if_pos rfl]
  · rw [Keyed.get?_erase, if_pos rfl]

theorem forwardDepth_of_get? {j : Json} {d : Nat}
    (h : j.get? forwardDepthKey = if 0 < d then some (.nat d) else none) (hd : d < 2 ^ 32) : forwardDepth j = d := by
  by_cases hpos : 0 < d
  · have hrange : (0 : Int) ≤ d ∧ (d : Int) < Nat.pow 2 32 := by
      have hpow : Nat.pow 2 32 = 2 ^ 32 := rfl
      omega
    rw [forwardDepth, h, if_pos hpos]
    exact (if_pos hrange).trans (Int.toNat_natCast d)
  · rw [forwardDepth, h, if_neg hpos]
    exact (Nat.eq_zero_of_not_pos hpos).symm

namespace RunFrame
variable {f : RunFrame} {settings : EngineSettings}

theorem permits_engine (h : f.eventContext.Canonical) : f.Permits settings .engine where
  plain _ := Terms.engine_plain
  insert next t := by
    rintro ⟨now, delay, unit, hnow, ht⟩
    exact ⟨Instant.ordinary_of_addSeconds? hnow ht, suspendedContext_canonical h _⟩
  spawn target _ := h

end RunFrame

variable (settings : EngineSettings) (limit : Nat)

theorem ForwardedRun.execute_meets {r : ForwardedRun} (h : r.eventContext.Canonical) :
    (r.execute settings limit).Meets .engine fun _ => True :=
  Program.meets_bind (RunFrame.run_meets (RunFrame.permits_engine h) limit none) fun _ _ => trivial

def Request.IsServing : Request → Prop
  | .getContact _ | .findContact .. | .createContact _ | .listBoards _ | .firstConnection _ => True
  | .listAutomations _ | .updateAutomation _ => True
  | _ => False

theorem Request.IsServing.isPlain {r : Request} (h : r.IsServing) : r.IsPlain := by
  cases r <;> first | exact trivial | exact h.elim

section
variable {c : Terms} {context : Json}

theorem runEach_meets {contact : Contact} {connection : Connection} {automations : List Automation}
    (hruns : ∀ a ∈ automations, Attempt.Meets c (fun _ => True) (execute settings limit a contact context connection none))
    (report : DispatchReport) :
    (runEach settings limit contact context connection report automations).Meets c fun _ => True := by
  induction automations generalizing report with
  | nil => exact trivial
  | cons a rest ih =>
    obtain ⟨ha, hrest⟩ := List.forall_mem_cons.mp hruns
    refine Program.meets_bind ha fun x _ => ?_
    split <;> exact ih hrest _

/-- Firing an event looks up the contact, a connection and the automations, and then asks for what the runs ask for of
those that the event starts. -/
theorem fire_meets_within {event : Event} {contactId : Int} {scope : Scope} (hcontact : c.asks (.getContact contactId))
    (hconnection : ∀ user, c.asks (.firstConnection user))
    (hlist : ∀ contact, c.answers (.getContact contactId) (.ok (some contact)) →
      c.asks (.listAutomations (scope.audience contact)))
    (hruns : ∀ contact connection automations, c.answers (.getContact contactId) (.ok (some contact)) →
      c.answers (.listAutomations (scope.audience contact)) (.ok automations) →
      ∀ a ∈ selectAutomations automations event contact, Attempt.Meets c (fun _ => True)
        (execute settings limit a contact (event.context contactId) connection none)) :
    Attempt.Meets c (fun _ => True) (fire settings limit event contactId scope) := by
  unfold fire
  refine Attempt.meets_bind (Attempt.meets_of (Program.meets_request hcontact fun x hx found hfound => hfound ▸ hx))
    fun found hfound => ?_
  split
  · exact Attempt.meets_pure trivial
  · rename_i contact
    split
    · exact Attempt.meets_pure trivial
    · dsimp only
      split
      on_goal 1 =>
        refine Attempt.meets_bind (P := fun _ => True) (Attempt.meets_pure trivial) fun connection _ => ?_
      on_goal 2 =>
        refine Attempt.meets_bind (P := fun _ => True) (Attempt.meets_of_trivial ?_) fun connection _ => ?_
        · exact Program.meets_request (hconnection _) fun _ _ => trivial
      -- over either connection the automations are found and run
      all_goals
        cases connection with
        | none => exact Attempt.meets_pure trivial
        | some connection =>
          refine Attempt.meets_bind (Attempt.meets_of (Program.meets_request (hlist contact hfound)
            fun x hx listed hlisted => hlisted ▸ hx)) fun automations hlisted => ?_
          refine Attempt.meets_always (runEach_meets settings limit ?_ _)
          exact hruns contact connection automations hfound hlisted

variable (hserving : ∀ r : Request, r.IsServing → c.asks r)
include hserving

/-- Firing an event keeps to the terms of the runs with its context. -/
theorem fire_meets_of {event : Event} {contactId : Int} (hcontext : event.context contactId = context)
    (hruns : ∀ automation contact connection, Attempt.Meets c (fun _ => True)
      (RunFrame.run settings ⟨automation, contact, context, connection, forwardDepth context⟩ limit none))
    (scope : Scope) : Attempt.Meets c (fun _ => True) (fire settings limit event contactId scope) := by
  subst hcontext
  exact fire_meets_within settings limit (hserving _ trivial) (fun _ => hserving _ trivial) (fun _ _ => hserving _ trivial)
    fun contact connection _ _ _ a _ => hruns a contact connection

namespace Intake

omit hserving in
/-- A contact is looked up, and otherwise made of the body. -/
theorem contactFor_meets {owner : Uuid} {phone : String} {body : Json} (hfind : c.asks (.findContact owner phone))
    (hboards : c.asks (.listBoards owner))
    (hcreate : ∀ boards, c.asks (.createContact (newContact owner phone body boards))) :
    Attempt.Meets c (fun _ => True) (contactFor owner phone body) := by
  have hone {r : Request} (hr : c.asks r) : (Program.request r).Meets c fun _ => True :=
    Program.meets_request hr fun _ _ => trivial
  unfold contactFor
  refine Attempt.meets_bind (Attempt.meets_of_trivial (hone hfind)) fun found _ => ?_
  split
  · exact Attempt.meets_pure trivial
  · refine Attempt.meets_bind (Attempt.meets_of_trivial (hone hboards)) fun boards _ => ?_
    refine Attempt.meets_bind (Attempt.meets_of_trivial (hone (hcreate boards))) fun contact _ => ?_
    exact Attempt.meets_pure trivial

omit hserving in
theorem fireEach_meets {contactId : Int} {scope : Scope} (reports : List DispatchReport) {events : List Event}
    (hfire : ∀ e ∈ events, Attempt.Meets c (fun _ => True) (fire settings limit e contactId scope)) :
    Attempt.Meets c (fun _ => True) (fireEach settings limit contactId scope reports events) := by
  induction events generalizing reports with
  | nil => exact Attempt.meets_pure trivial
  | cons e rest ih =>
    obtain ⟨he, hrest⟩ := List.forall_mem_cons.mp hfire
    refine Attempt.meets_bind (Attempt.meets_of_trivial ?_) fun report _ => ih _ hrest
    exact Program.meets_mono he fun _ _ => trivial

omit hserving in
/-- A webhook call looks up what it is about, stores a sample or a contact made of the body, and fires its events. -/
theorem handle_meets_within (webhookId : String) {body : Json}
    (hserving : ∀ r : Request, r.IsServing → (∀ new, r ≠ .createContact new) → c.asks r)
    (hcreate : ∀ owner phone boards, c.asks (.createContact (newContact owner phone body boards)))
    (hfire : ∀ contact created, ∀ e ∈ events body contact created,
      ∀ contactId scope, Attempt.Meets c (fun _ => True) (fire settings limit e contactId scope)) :
    Attempt.Meets c (fun _ => True) (handle settings limit webhookId body) := by
  have hone {r : Request} (hr : r.IsServing) (hnew : ∀ new, r ≠ .createContact new) :
      (Program.request r).Meets c fun _ => True :=
    Program.meets_request (hserving r hr hnew) fun _ _ => trivial
  unfold handle
  refine Attempt.meets_bind (Attempt.meets_of_trivial (hone trivial (by simp))) fun automations _ => ?_
  split
  · exact Attempt.meets_throw
  · split
    · refine Attempt.meets_bind (Attempt.meets_of_trivial (hone trivial (by simp))) fun _ _ => ?_
      exact Attempt.meets_pure trivial
    · split
      · exact Attempt.meets_throw
      · rename_i phone _
        refine Attempt.meets_bind (contactFor_meets (hserving _ trivial (by simp)) (hserving _ trivial (by simp))
          fun boards => hcreate _ phone boards) fun found _ => ?_
        obtain ⟨contact, created⟩ := found
        refine Attempt.meets_bind (Attempt.meets_of_trivial (hone trivial (by simp))) fun connection _ => ?_
        split
        · exact Attempt.meets_throw
        · refine Attempt.meets_bind (fireEach_meets settings limit [] fun e he => ?_) fun reports _ => ?_
          · exact hfire contact created e he _ _
          · exact Attempt.meets_pure trivial

/-- A webhook call keeps to the terms of the events that it fires. -/
theorem handle_meets_of (webhookId : String) {body : Json} (hfire : ∀ contact created, ∀ e ∈ events body contact created,
      ∀ contactId scope, Attempt.Meets c (fun _ => True) (fire settings limit e contactId scope)) :
    Attempt.Meets c (fun _ => True) (handle settings limit webhookId body) :=
  handle_meets_within settings limit webhookId (fun r hr _ => hserving r hr) (fun _ _ _ => hserving _ trivial) hfire

end Intake
end

theorem fire_meets {event : Event} (h : event.IsOrdered) (contactId : Int) (scope : Scope) :
    Attempt.Meets .engine (fun _ => True) (fire settings limit event contactId scope) :=
  fire_meets_of settings limit (fun _ hr => Terms.engine_plain hr.isPlain) rfl
    (fun _ _ _ => RunFrame.run_meets (RunFrame.permits_engine (Event.context_canonical h contactId)) limit none) scope

namespace Intake

theorem events_ordered {body : Json} (h : body.Canonical) (contact : Contact) (created : Bool) :
    ∀ e ∈ events body contact created, e.IsOrdered := by
  intro e he
  obtain rfl | he := List.mem_cons.mp he
  · exact h
  · cases created with
    | false => simp at he
    | true =>
      obtain rfl | he := List.mem_cons.mp he
      · trivial
      · obtain ⟨tag, -, rfl⟩ := List.mem_map.mp he
        trivial

theorem handle_meets (webhookId : String) {body : Json} (h : body.Canonical) :
    Attempt.Meets .engine (fun _ => True) (handle settings limit webhookId body) :=
  handle_meets_of settings limit (fun _ hr => Terms.engine_plain hr.isPlain) webhookId
    fun contact created e he => fire_meets settings limit (events_ordered h contact created e he)

end Intake

namespace Inbox

theorem handle_meets_of {c : Terms} {text : InboundText} (hfind : c.asks (.findContactAnywhere text.sender))
    (hfire : ∀ contactId scope, Attempt.Meets c (fun _ => True)
      (fire settings limit (.contextMessage text.body) contactId scope)) (s : InboxSummary) :
    (handle settings limit text s).Meets c fun _ => True := by
  refine Program.meets_bind (P := fun _ => True) (Program.meets_request hfind fun _ _ => trivial) fun found _ => ?_
  split
  · exact Program.meets_pure trivial
  · exact Program.meets_pure trivial
  · refine Program.meets_bind (hfire _ _) fun x _ => ?_
    split <;> exact Program.meets_pure trivial

theorem handleEach_meets {c : Terms} {texts : List InboundText}
    (heach : ∀ text ∈ texts, ∀ s, (handle settings limit text s).Meets c fun _ => True) (s : InboxSummary) :
    (handleEach settings limit s texts).Meets c fun _ => True := by
  induction texts generalizing s with
  | nil => exact trivial
  | cons t rest ih =>
    obtain ⟨ht, hrest⟩ := List.forall_mem_cons.mp heach
    exact Program.meets_bind (ht s) fun s _ => ih hrest s

theorem process_meets_of {c : Terms} {n : Notification}
    (heach : ∀ text ∈ n.textMessages, ∀ s, (handle settings limit text s).Meets c fun _ => True) :
    (process settings limit n).Meets c fun _ => True :=
  handleEach_meets settings limit heach _

theorem process_meets (n : Notification) : (process settings limit n).Meets .engine fun _ => True :=
  process_meets_of settings limit fun text _ =>
    handle_meets_of settings limit trivial (@fire_meets settings limit (.contextMessage text.body) trivial)

end Inbox

namespace ScheduledTask

theorem finish_meets {c : Terms} {t : ScheduledTask} {status : TaskStatus} {error : Option String}
    (h : c.asks (.updateTask t.id status error)) : (t.finish status error).Meets c fun _ => True :=
  Program.meets_bind (P := fun _ => True) (Program.meets_request h fun _ _ => trivial) fun _ _ => trivial

/-- A task is claimed, its run is resumed once it is won, and its end is recorded unless it was lost. -/
theorem settle_meets_of {c : Terms} {t : ScheduledTask} (hclaim : c.asks (.claimTask t.id))
    (hresume : c.answers (.claimTask t.id) (.ok true) → Attempt.Meets c (fun _ => True) (t.resume settings limit))
    (hwon : c.answers (.claimTask t.id) (.ok true) → ∀ status error, c.asks (.updateTask t.id status error))
    (hrefused : ∀ e, c.answers (.claimTask t.id) (.error e) → ∀ status error, c.asks (.updateTask t.id status error))
    (s : SweepSummary) : (t.settle settings limit s).Meets c fun _ => True := by
  refine Program.meets_bind (Program.meets_request (P := fun x => c.answers (.claimTask t.id) x) hclaim fun _ hx => hx)
    fun won hx => ?_
  split
  · exact Program.meets_pure trivial
  · exact Program.meets_bind (finish_meets (hrefused _ hx _ _)) fun _ _ => trivial
  · refine Program.meets_bind (hresume hx) fun x _ => ?_
    split <;> exact Program.meets_bind (finish_meets (hwon hx _ _)) fun _ _ => trivial

theorem settleAll_meets {c : Terms} {due : List ScheduledTask}
    (h : ∀ t ∈ due, ∀ s, (t.settle settings limit s).Meets c fun _ => True) (s : SweepSummary) :
    (settleAll settings limit s due).Meets c fun _ => True := by
  induction due generalizing s with
  | nil => exact trivial
  | cons t rest ih =>
    obtain ⟨ht, hrest⟩ := List.forall_mem_cons.mp h
    exact Program.meets_bind (ht s) fun s _ => ih hrest s

end ScheduledTask

/-- A sweep looks up the due tasks, and settles them one after the other. -/
theorem sweep_meets_of {c : Terms} (hnow : c.asks .now) (hdue : ∀ now, c.asks (.dueTasks now))
    (htasks : ∀ now due, c.answers (.dueTasks now) (.ok due) →
      ∀ t ∈ due, ∀ s, (t.settle settings limit s).Meets c fun _ => True) :
    Attempt.Meets c (fun _ => True) (sweep settings limit) := by
  have hclock : (Program.request .now).Meets c fun _ => True := Program.meets_request hnow fun _ _ => trivial
  unfold sweep
  refine Attempt.meets_bind (Attempt.meets_always hclock) fun now _ => ?_
  refine Attempt.meets_bind (Attempt.meets_of (Program.meets_request (hdue now) fun x hx due hok => hok ▸ hx))
    fun due hlisted => ?_
  exact Attempt.meets_always (ScheduledTask.settleAll_meets settings limit (htasks now due hlisted) _)

theorem sweep_meets : Attempt.Meets .engine (fun _ => True) (sweep settings limit) := by
  refine sweep_meets_of settings limit trivial (fun _ => trivial) fun now due hlisted t ht => ?_
  have hresume := ScheduledTask.resume_meets_of settings limit (fun _ => Terms.engine_plain) (t := t)
    fun _ _ _ => RunFrame.permits_engine (hlisted due rfl t ht)
  exact ScheduledTask.settle_meets_of settings limit trivial (fun _ => hresume) (fun _ _ _ => trivial)
    fun _ _ _ _ => trivial

end Outreach
