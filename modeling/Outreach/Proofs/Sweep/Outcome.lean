import Outreach.Proofs.Database.Frames
import Outreach.Proofs.Sweep.Course

/-! What becomes of the tasks that are handled. Only a claim or a record about a task touches its row, so what others ask
drops out, and with a storage that does not fail the row says in the end what was missing, if anything was. -/
namespace Outreach

namespace Exchange

def isAbout (id : Int) (e : Exchange) : Bool :=
  match e.request with
  | .claimTask i | .updateTask i _ _ => i == id
  | _ => false

theorem isAbout_of_not_claiming {e : Exchange} (h : ¬ e.request.IsClaiming) (id : Int) : e.isAbout id = false := by
  obtain ⟨r, x⟩ := e
  cases r <;> first | rfl | exact absurd trivial h

def rewrite (row : TaskRow) : Exchange → TaskRow
  | ⟨.claimTask id, .ok _⟩ => row.under (.claimTask id)
  | ⟨.updateTask id status error, .ok _⟩ => row.under (.updateTask id status error)
  | _ => row

theorem rewrite_of_not_about {e : Exchange} {row : TaskRow} (h : e.isAbout row.id = false) : e.rewrite row = row := by
  have hne {id : Int} (hid : (id == row.id) = false) : row.id ≠ id := fun heq => by simp [heq] at hid
  unfold rewrite
  split
  · exact TaskRow.under_claim_other (.inl (hne h))
  · exact TaskRow.under_update_other (hne h) _ _
  · rfl

theorem rewrite_sameTask (e : Exchange) (row : TaskRow) : row.SameTask (e.rewrite row) := by
  unfold rewrite TaskRow.under
  split
  · dsimp only
    split <;> rfl
  · dsimp only
    split <;> rfl
  · rfl

end Exchange

open Exchange

namespace TaskRow
variable {l : List Exchange} {row : TaskRow}

def rewritten (row : TaskRow) (l : List Exchange) : TaskRow := l.foldl rewrite row

theorem rewritten_append (row : TaskRow) (l m : List Exchange) : row.rewritten (l ++ m) = (row.rewritten l).rewritten m :=
  List.foldl_append

theorem rewritten_sameTask (row : TaskRow) (l : List Exchange) : row.SameTask (row.rewritten l) := by
  induction l generalizing row with
  | nil => rfl
  | cons e l ih => exact Remit.sameTask_trans _ _ _ (e.rewrite_sameTask row) (ih _)

theorem SameTask.id_eq {r r' : TaskRow} (h : r.SameTask r') : r'.id = r.id := by rw [h]

theorem id_rewrite (e : Exchange) (row : TaskRow) : (e.rewrite row).id = row.id := (e.rewrite_sameTask row).id_eq

theorem rewritten_of_not_claiming (h : ∀ e ∈ l, ¬ e.request.IsClaiming) (row : TaskRow) : row.rewritten l = row := by
  induction l with
  | nil => rfl
  | cons e l ih =>
    obtain ⟨he, hl⟩ := List.forall_mem_cons.mp h
    rw [rewritten, List.foldl_cons, rewrite_of_not_about (isAbout_of_not_claiming he _)]
    exact ih hl

theorem rewritten_filter (row : TaskRow) (l : List Exchange) :
    row.rewritten (l.filter (isAbout row.id)) = row.rewritten l := by
  induction l generalizing row with
  | nil => rfl
  | cons e l ih =>
    cases he : e.isAbout row.id with
    | true =>
      rw [List.filter_cons_of_pos he, rewritten, rewritten, List.foldl_cons, List.foldl_cons, ← id_rewrite e row]
      exact ih _
    | false =>
      rw [List.filter_cons_of_neg (by simp [he]), ih, rewritten, rewritten, List.foldl_cons, rewrite_of_not_about he]

end TaskRow

namespace Database
variable (db : Database)

def HasAutomation (id : Uuid) : Prop := ∃ row ∈ db.automations, row.id = id.text

def HasContact (id : Int) : Prop := ∃ row ∈ db.contacts, row.id = id

def HasConnection (id : Uuid) : Prop := ∃ row ∈ db.connections, row.id = id.text

instance (id : Uuid) : Decidable (db.HasAutomation id) := inferInstanceAs (Decidable (∃ row ∈ db.automations, row.id = id.text))

instance (id : Int) : Decidable (db.HasContact id) := inferInstanceAs (Decidable (∃ row ∈ db.contacts, row.id = id))

instance (id : Uuid) : Decidable (db.HasConnection id) := inferInstanceAs (Decidable (∃ row ∈ db.connections, row.id = id.text))

def Tells : (r : Request) → r.Reply → Prop
  | .getAutomation id, x => ∀ found, x = .ok found → (found.isSome = true ↔ db.HasAutomation id)
  | .getContact id, x => ∀ found, x = .ok found → (found.isSome = true ↔ db.HasContact id)
  | .getConnection id, x => ∀ found, x = .ok found → (found.isSome = true ↔ db.HasConnection id)
  | _, _ => True

end Database

def ScheduledTask.missing? (db : Database) (t : ScheduledTask) : Option String :=
  if ¬ db.HasAutomation t.automationId then some (t.automationNote ++ " not found")
  else if ¬ db.HasContact t.contactId then some (t.contactNote ++ " not found")
  else if ¬ db.HasConnection t.connectionId then some (t.connectionNote ++ " not found")
  else none

/-- The row as it is left behind once the due tasks are settled. -/
def TaskRow.settled (db : Database) (due : List ScheduledTask) (row : TaskRow) : TaskRow :=
  match due.find? (·.id == row.id) with
  | none => row
  | some t => { row with status := (statusAfter (t.missing? db)).text, errorMessage := t.missing? db }

def Request.IsSweeping : Request → Prop
  | .claimTask _ | .updateTask .. | .getAutomation _ | .getContact _ | .getConnection _ | .mergeStats .. => True
  | _ => False

def Faultless (l : List Exchange) : Prop := ∀ e ∈ l, e.request.IsSweeping → ¬ e.request.IsFault e.reply

theorem Faultless.mono {l m : List Exchange} (h : Faultless l) (hm : m ⊆ l) : Faultless m :=
  fun e he => h e (hm he)

theorem lookedUp_eq_error {α : Type} {what m : String} {found : Except RepositoryError (Option α)} {p : Prop}
    (h : lookedUp what found = .error m) (hfault : ¬ ∃ e, found = .error e)
    (htells : ∀ a, found = .ok a → (a.isSome = true ↔ p)) : ¬ p ∧ m = what ++ " not found" := by
  obtain e | _ | a := found
  · exact absurd ⟨e, rfl⟩ hfault
  · cases h
    exact ⟨fun hp => by simpa using (htells none rfl).mpr hp, rfl⟩
  · cases h

namespace ScheduledTask
variable {settings : EngineSettings} {limit : Nat} {t : ScheduledTask} {l : List Exchange} {ending : Ending}
  {due : List ScheduledTask} {ends : List Ending} {db : Database}

theorem Resumed.not_claiming {x : Except String Unit} (h : t.Resumed settings limit l x) :
    ∀ e ∈ l, ¬ e.request.IsClaiming :=
  ((t.resume_meets settings limit).of_yields (resume_yields_iff.mpr h) fun _ _ => trivial).1

/-- With a storage that does not fail, a resumed task fails just over what is missing. -/
theorem Resumed.failure_eq {x : Except String Unit} (h : t.Resumed settings limit l x) (hfaultless : Faultless l)
    (htells : ∀ e ∈ l, db.Tells e.request e.reply) : SweepPhase.failure? x = t.missing? db := by
  cases h with
  | noAutomation missing =>
    obtain ⟨hnot, rfl⟩ := lookedUp_eq_error missing (hfaultless _ List.mem_cons_self trivial) (htells _ List.mem_cons_self)
    rw [missing?, if_pos hnot]
    rfl
  | noContact automation missing =>
    obtain ⟨hautomation, hcontact, -⟩ := by simpa only [List.forall_mem_cons] using htells
    have hfound : db.HasAutomation t.automationId := (hautomation _ rfl).mp rfl
    obtain ⟨hnot, rfl⟩ := lookedUp_eq_error missing (hfaultless _ (List.mem_cons_of_mem _ List.mem_cons_self) trivial) hcontact
    rw [missing?, if_neg (not_not.mpr hfound), if_pos hnot]
    rfl
  | noConnection automation contact missing =>
    obtain ⟨hautomation, hcontact, hconnection, -⟩ := by simpa only [List.forall_mem_cons] using htells
    have hfirst : db.HasAutomation t.automationId := (hautomation _ rfl).mp rfl
    have hsecond : db.HasContact t.contactId := (hcontact _ rfl).mp rfl
    have hheard := hfaultless _ (List.mem_cons_of_mem _ (List.mem_cons_of_mem _ List.mem_cons_self)) trivial
    obtain ⟨hnot, rfl⟩ := lookedUp_eq_error missing hheard hconnection
    rw [missing?, if_neg (not_not.mpr hfirst), if_neg (not_not.mpr hsecond), if_pos hnot]
    rfl
  | @ran automation contact connection l x run =>
    obtain ⟨hautomation, hcontact, hconnection, -⟩ := by simpa only [List.forall_mem_cons] using htells
    have hfirst : db.HasAutomation t.automationId := (hautomation _ rfl).mp rfl
    have hsecond : db.HasContact t.contactId := (hcontact _ rfl).mp rfl
    have hthird : db.HasConnection t.connectionId := (hconnection _ rfl).mp rfl
    rw [missing?, if_neg (not_not.mpr hfirst), if_neg (not_not.mpr hsecond), if_neg (not_not.mpr hthird)]
    obtain ⟨report, rfl⟩ : ∃ report, x = .ok report := by
      cases run with
      | nowhere start => exact ⟨_, rfl⟩
      | @walked n legs outcome start walked within merged =>
        cases merged with
        | ok _ => exact ⟨_, rfl⟩
        | error e =>
          exact absurd ⟨e, rfl⟩ (hfaultless ⟨.mergeStats automation.id (Leg.counts legs), .error e⟩ (by simp [frame]) trivial)
    rfl

/-- Nothing but the task itself is claimed or recorded. -/
theorem Handled.about_other (h : t.Handled settings limit l ending) {id : Int} (hid : t.id ≠ id) :
    l.filter (isAbout id) = [] := by
  rw [List.filter_eq_nil_iff]
  intro e he
  have hne : (t.id == id) = false := beq_false_of_ne hid
  cases h with
  | lost =>
    obtain rfl := List.mem_singleton.mp he
    simp [isAbout, hne]
  | refused fault recorded =>
    simp only [List.mem_cons, List.not_mem_nil, or_false] at he
    obtain rfl | rfl := he <;> simp [isAbout, hne]
  | resumed resumed recorded =>
    simp only [List.mem_cons, List.mem_append, List.not_mem_nil, or_false] at he
    obtain rfl | he | rfl := he
    · simp [isAbout, hne]
    · simp [isAbout_of_not_claiming (resumed.not_claiming e he) id]
    · simp [isAbout, hne]

theorem Handled.head_of_lost (h : t.Handled settings limit l .lost) :
    (l.filter (isAbout t.id)).head? = some ⟨.claimTask t.id, .ok false⟩ := by
  cases h
  simp [isAbout]

/-- The row of a task that was handled, with nothing failing on the way. -/
theorem Handled.rewritten {failure : Option String} (h : t.Handled settings limit l (.ended failure))
    (hfaultless : Faultless l) {row : TaskRow} (hid : row.id = t.id) :
    row.rewritten l = { row with status := (statusAfter failure).text, errorMessage := failure } := by
  cases h with
  | refused e recorded => exact absurd ⟨e, rfl⟩ (hfaultless _ List.mem_cons_self trivial)
  | @resumed l x resumed recorded =>
    cases recorded with
    | error e =>
      exact absurd ⟨e, rfl⟩ (hfaultless ⟨.updateTask t.id _ _, .error e⟩
        (List.mem_cons_of_mem _ (List.mem_append_right _ List.mem_cons_self)) trivial)
    | ok u =>
      have hclaimed : (rewrite row ⟨.claimTask t.id, .ok true⟩).id = t.id := (TaskRow.id_rewrite _ row).trans hid
      rw [TaskRow.rewritten, List.foldl_cons, ← TaskRow.rewritten, TaskRow.rewritten_append,
        TaskRow.rewritten_of_not_claiming resumed.not_claiming]
      refine (TaskRow.under_update hclaimed _ _).trans ?_
      rw [(rewrite_sameTask ⟨.claimTask t.id, .ok true⟩ row : _ = _)]

theorem HandledAll.about_other (h : HandledAll settings limit due l ends) {id : Int} (hid : id ∉ due.map (·.id)) :
    l.filter (isAbout id) = [] := by
  induction h with
  | nil => rfl
  | cons first others ih =>
    obtain ⟨hne, hrest⟩ := not_or.mp (mt List.mem_cons.mpr hid)
    rw [List.filter_append, first.about_other (Ne.symm hne), ih hrest]
    rfl

def HandledIn (settings : EngineSettings) (limit : Nat) (l : List Exchange) (t : ScheduledTask) (ending : Ending) : Prop :=
  ∃ part, t.Handled settings limit part ending ∧ part ⊆ l ∧ l.filter (isAbout t.id) = part.filter (isAbout t.id)

theorem HandledAll.each (h : HandledAll settings limit due l ends) (hids : (due.map (·.id)).Nodup) :
    List.Forall₂ (HandledIn settings limit l) due ends := by
  induction h with
  | nil => exact .nil
  | @cons t rest l ls ending ends first others ih =>
    obtain ⟨hnot, hrest⟩ := List.nodup_cons.mp hids
    refine .cons ⟨l, first, List.subset_append_left _ _, ?_⟩ ?_
    · rw [List.filter_append, others.about_other hnot, List.append_nil]
    · have hothers : List.Forall₂ (fun u ending => u ∈ rest ∧ HandledIn settings limit ls u ending) rest ends :=
        (List.forall₂_and_left _ _).mpr ⟨fun _ hu => hu, ih hrest⟩
      refine hothers.imp fun u ending hu => ?_
      obtain ⟨hmem, part, hhandled, hpart, habout⟩ := hu
      have hne : t.id ≠ u.id := fun heq => hnot (List.mem_map.mpr ⟨u, hmem, heq.symm⟩)
      refine ⟨part, hhandled, fun e he => List.mem_append_right _ (hpart he), ?_⟩
      rw [List.filter_append, first.about_other hne, List.nil_append, habout]

/-- A task is not lost of which the first claim was not answered so. -/
theorem HandledIn.ne_lost (h : HandledIn settings limit l t ending)
    (hfirst : (l.filter (isAbout t.id)).head? ≠ some ⟨.claimTask t.id, .ok false⟩) : ending ≠ .lost := by
  rintro rfl
  obtain ⟨part, hhandled, -, habout⟩ := h
  exact hfirst (habout ▸ hhandled.head_of_lost)

/-- With a storage that does not fail, a task ends just over what is missing. -/
theorem HandledIn.ending_eq (h : HandledIn settings limit l t ending) (hne : ending ≠ .lost) (hfaultless : Faultless l)
    (htells : ∀ e ∈ l, db.Tells e.request e.reply) : ending = .ended (t.missing? db) := by
  obtain ⟨part, hhandled, hpart, -⟩ := h
  have hheard := hfaultless.mono hpart
  cases hhandled with
  | lost => exact absurd rfl hne
  | refused e recorded => exact absurd ⟨e, rfl⟩ (hheard _ List.mem_cons_self trivial)
  | @resumed l x resumed recorded =>
    have hl : l ⊆ _ := fun e he => hpart (List.mem_cons_of_mem _ (List.mem_append_left _ he))
    rw [resumed.failure_eq (hfaultless.mono hl) fun e he => htells e (hl he)]

/-- Then the rows say so of the tasks that were handled, and the others are as they were. -/
theorem HandledAll.rewritten (h : HandledAll settings limit due l (due.map fun t => .ended (t.missing? db)))
    (hids : (due.map (·.id)).Nodup) (hfaultless : Faultless l) (row : TaskRow) :
    row.rewritten l = row.settled db due := by
  unfold TaskRow.settled
  rw [← row.rewritten_filter l]
  split
  · rename_i hnone
    have hid : row.id ∉ due.map (·.id) := by
      intro hmem
      obtain ⟨t, ht, hid⟩ := List.mem_map.mp hmem
      exact List.find?_eq_none.mp hnone t ht (by simp [hid])
    rw [h.about_other hid]
    rfl
  · rename_i t hsome
    have ht := List.mem_of_find?_eq_some hsome
    have hid : t.id = row.id := by simpa using List.find?_some hsome
    obtain ⟨part, hhandled, hpart, habout⟩ := List.forall₂_same.mp (List.forall₂_map_right_iff.mp (h.each hids)) t ht
    rw [← hid, habout, hid, row.rewritten_filter part]
    exact hhandled.rewritten (hfaultless.mono hpart) hid.symm

end ScheduledTask
end Outreach
