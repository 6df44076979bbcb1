import Outreach.Proofs.Database.Automations
import Outreach.Proofs.Service.Answers

/-! Stores that differ in automations of no concern. Requests that have to do with none of these are answered alike, and
leave such stores behind again. -/
namespace Outreach

section
variable {α : Type} {keep : α → Prop} {as bs : List α}

/-- The same rows in the same order, but for rows of no concern, of which each table may have any. -/
inductive Beside (keep : α → Prop) : List α → List α → Prop where
  | nil : Beside keep [] []
  | both (a : α) {as bs : List α} (rest : Beside keep as bs) : Beside keep (a :: as) (a :: bs)
  | left {a : α} {as bs : List α} (strange : ¬ keep a) (rest : Beside keep as bs) : Beside keep (a :: as) bs
  | right {b : α} {as bs : List α} (strange : ¬ keep b) (rest : Beside keep as bs) : Beside keep as (b :: bs)

theorem Beside.filter {p : α → Bool} (h : Beside keep as bs) (hp : ∀ a, p a = true → keep a) :
    as.filter p = bs.filter p := by
  induction h with
  | nil => rfl
  | both a rest ih => rw [List.filter_cons, List.filter_cons, ih]
  | left strange rest ih => rw [List.filter_cons_of_neg (fun h => strange (hp _ h)), ih]
  | right strange rest ih => rw [List.filter_cons_of_neg (fun h => strange (hp _ h)), ih]

theorem Beside.find? {p : α → Bool} (h : Beside keep as bs) (hp : ∀ a, p a = true → keep a) :
    as.find? p = bs.find? p := by
  rw [← List.head?_filter, h.filter hp, List.head?_filter]

theorem Beside.any {p : α → Bool} (h : Beside keep as bs) (hp : ∀ a, p a = true → keep a) : as.any p = bs.any p := by
  rw [← List.isSome_find?, h.find? hp, List.isSome_find?]

theorem Beside.map {g : α → α} (h : Beside keep as bs) (hg : ∀ a, keep (g a) → keep a) :
    Beside keep (as.map g) (bs.map g) := by
  induction h with
  | nil => exact .nil
  | both a rest ih => exact .both (g a) ih
  | left strange rest ih => exact .left (fun h => strange (hg _ h)) ih
  | right strange rest ih => exact .right (fun h => strange (hg _ h)) ih

end

def AutomationRow.Concerns (user : Uuid) (ids : Uuid → Prop) (r : AutomationRow) : Prop :=
  r.userId = user.text ∨ ∃ id, ids id ∧ r.id = id.text

def Request.Within (user : Uuid) (ids : Uuid → Prop) : Request → Prop
  | .getAutomation id | .mergeStats id _ => ids id
  | .listAutomations audience => audience = .user user
  | .insertTask t => ids t.automationId
  | .spawn run => ids run.automation.id
  | .createAutomation _ | .updateAutomation _ | .setStatus .. | .deleteAutomation _ => False
  | _ => True

namespace Database

def withAutomations (db : Database) (rows : List AutomationRow) : Database := { db with automations := rows }

variable {db : Database} {rows : List AutomationRow}

theorem createContact_withAutomations (now : Instant) (c : NewContact) :
    (db.withAutomations rows).createContact now c =
      (db.createContact now c).map fun y => (y.1, y.2.withAutomations rows) := by
  unfold createContact
  rw [apply_ite (Except.map _)]
  rfl

theorem updateContact_withAutomations (id : Int) (p : ContactPatch) :
    (db.withAutomations rows).updateContact id p = (db.updateContact id p).map (·.withAutomations rows) := by
  unfold updateContact
  rw [show (db.withAutomations rows).contacts = db.contacts from rfl]
  cases db.contacts.find? (·.id == id) with
  | none => rfl
  | some r =>
    cases hread : r.read with
    | error e => simp only [hread]; rfl
    | ok old =>
      simp only [hread, bind, Except.bind]
      rw [apply_ite (Except.map _), apply_ite (Except.map _)]
      rfl

theorem insertTask_withAutomations (now : Instant) {t : NewTask}
    (hany : db.automations.any (·.id == t.automationId.text) = rows.any (·.id == t.automationId.text)) :
    (db.withAutomations rows).insertTask now t =
      (db.insertTask now t).map fun y => (y.1, y.2.withAutomations rows) := by
  unfold insertTask
  rw [apply_ite (Except.map _), hany]
  rfl

theorem updateTask_withAutomations (id : Int) (status : TaskStatus) (error : Option String) :
    (db.withAutomations rows).updateTask id status error = (db.updateTask id status error).map (·.withAutomations rows) := by
  simp only [updateTask, change, withAutomations]
  cases db.tasks.any (·.id == id) <;> rfl

/-- Either store takes the same counters, or neither takes them. -/
theorem mergeStats_withAutomations {id : Uuid} (delta : ExecutionStats)
    (hfind : db.automations.find? (·.id == id.text) = rows.find? (·.id == id.text)) :
    (∃ e, db.mergeStats id delta = .error e ∧ (db.withAutomations rows).mergeStats id delta = .error e) ∨
    ∃ g : AutomationRow → AutomationRow, (∀ r, (g r).id = r.id ∧ (g r).userId = r.userId) ∧
      db.mergeStats id delta = .ok (db.withAutomations (db.automations.map g)) ∧
      (db.withAutomations rows).mergeStats id delta = .ok (db.withAutomations (rows.map g)) := by
  simp only [mergeStats, withAutomations, ← hfind]
  cases db.automations.find? (·.id == id.text) with
  | none => exact .inl ⟨_, rfl, rfl⟩
  | some r =>
    cases hstats : r.stats with
    | error e => simp only [hstats]; exact .inl ⟨e, rfl, rfl⟩
    | ok stats =>
      simp only [hstats]
      refine .inr ⟨_, fun r => ?_, rfl, rfl⟩
      split <;> exact ⟨rfl, rfl⟩

theorem saveBoard_withAutomations (b : Board) :
    (db.withAutomations rows).saveBoard b = (db.saveBoard b).withAutomations rows := by
  simp only [saveBoard, change, withAutomations]
  cases db.boards.any (·.id == b.id) <;> rfl

end Database

namespace Service
variable {around : Surroundings} {s : Service} {user : Uuid} {ids : Uuid → Prop} {rows : List AutomationRow}

def withAutomations (s : Service) (rows : List AutomationRow) : Service := { s with db := s.db.withAutomations rows }

theorem tick_withAutomations (s : Service) (rows : List AutomationRow) :
    (s.withAutomations rows).tick = (s.tick.1, s.tick.2.withAutomations rows) := by
  rw [withAutomations, tick, tick, withAutomations]

theorem freshId_withAutomations (s : Service) (rows : List AutomationRow) :
    (s.withAutomations rows).freshId = (s.freshId.1, s.freshId.2.withAutomations rows) := by
  rw [withAutomations, freshId, freshId, withAutomations]

/-- A draw depends on where chance stands, and on nothing else. -/
theorem draw_of_seed (n seed : Nat) :
    ∃ m seed', ∀ s : Service, s.seed = seed → s.draw n = (m, { s with seed := seed' }) :=
  ⟨_, _, fun s h => by rw [draw, h]⟩

theorem storing_withAutomations {α : Type} (s : Service) (y : Except RepositoryError (α × Database)) :
    (s.withAutomations rows).storing (y.map fun y => (y.1, y.2.withAutomations rows)) =
      ((s.storing y).1, (s.storing y).2.withAutomations rows) := by
  cases y <;> rfl

theorem writing_withAutomations (s : Service) (y : Except RepositoryError Database) :
    (s.withAutomations rows).writing (y.map (·.withAutomations rows)) =
      ((s.writing y).1, (s.writing y).2.withAutomations rows) := by
  cases y <;> rfl

theorem outcall_withAutomations {ε α : Type} (s : Service) (y : Except ε α) :
    (s.withAutomations rows).outcall y = ((s.outcall y).1, (s.outcall y).2.withAutomations rows) := rfl

/-- What leaves automations alone is answered alike, if it looks at no others than those of concern. -/
theorem answer_leaving {r : Request} (hr : r.Within user ids) (hleaves : r.LeavesAutomations)
    (h : Beside (AutomationRow.Concerns user ids) s.db.automations rows) :
    answer around r (s.withAutomations rows) = ((answer around r s).1, (answer around r s).2.withAutomations rows) := by
  have hown (id : Uuid) (hid : ids id) (row : AutomationRow) (hrow : (row.id == id.text) = true) :
      row.Concerns user ids := .inr ⟨id, hid, beq_iff_eq.mp hrow⟩
  cases r with
  | getAutomation id =>
    simp only [answer, Database.automation?, h.find? (hown id hr)]
    rfl
  | listAutomations audience =>
    subst hr
    have hlisted := h.filter (p := (·.userId == user.text)) fun row hrow => .inl (beq_iff_eq.mp hrow)
    simp only [answer, Database.listAutomations, hlisted]
    rfl
  | createContact c =>
    simp only [answer, tick_withAutomations]
    exact (congrArg _ (Database.createContact_withAutomations _ c)).trans (storing_withAutomations _ _)
  | updateContact id p =>
    exact (congrArg _ (Database.updateContact_withAutomations id p)).trans (writing_withAutomations s _)
  | insertTask t =>
    have hany := h.any (hown t.automationId hr)
    rw [← tick_db s] at hany
    simp only [answer, tick_withAutomations]
    exact (congrArg _ (Database.insertTask_withAutomations _ hany)).trans (storing_withAutomations _ _)
  | updateTask id status error =>
    exact (congrArg _ (Database.updateTask_withAutomations id status error)).trans (writing_withAutomations s _)
  | saveBoard b =>
    exact congrArg (fun db => (Except.ok (), { s with db := db })) (Database.saveBoard_withAutomations b)
  | createConnection c =>
    simp only [answer, tick_withAutomations, freshId_withAutomations]
    generalize s.tick = t
    generalize t.2.freshId = f
    rfl
  | pick n =>
    obtain ⟨m, seed, h⟩ := draw_of_seed n s.seed
    rw [answer, answer, h s rfl, h (s.withAutomations rows) rfl]
    rfl
  | now => simp only [answer, tick_withAutomations]
  | freshToken => simp only [answer, freshId_withAutomations]
  | freshIdentity => simp only [answer, tick_withAutomations, freshId_withAutomations]
  | sendText _ c phone body => exact outcall_withAutomations s _
  | sendTemplate _ c phone m => exact outcall_withAutomations s _
  | sendFlow _ c phone m => exact outcall_withAutomations s _
  | listTemplates _ c => exact outcall_withAutomations s _
  | sendHttp _ call => exact outcall_withAutomations s _
  | createAutomation _ | updateAutomation _ | setStatus _ _ | mergeStats _ _ | deleteAutomation _ => exact hleaves.elim
  | _ => rfl

/-- To a request about what is of concern, services that differ in other automations give the same answer, and then they
differ in other automations again. -/
theorem answer_withAutomations {r : Request} (hr : r.Within user ids)
    (h : Beside (AutomationRow.Concerns user ids) s.db.automations rows) :
    ∃ rows', Beside (AutomationRow.Concerns user ids) (answer around r s).2.db.automations rows' ∧
      answer around r (s.withAutomations rows) = ((answer around r s).1, (answer around r s).2.withAutomations rows') := by
  by_cases hleaves : r.LeavesAutomations
  · refine ⟨rows, ?_, answer_leaving hr hleaves h⟩
    rw [answer_automations hleaves]
    exact h
  · cases r with
    | mergeStats id delta =>
      have hfind : s.db.automations.find? (·.id == id.text) = rows.find? (·.id == id.text) :=
        h.find? fun row hrow => .inr ⟨id, hr, beq_iff_eq.mp hrow⟩
      obtain ⟨e, hmerge, hmerge'⟩ | ⟨g, hg, hmerge, hmerge'⟩ := s.db.mergeStats_withAutomations delta hfind
      · rw [answer, answer, withAutomations, hmerge, hmerge']
        exact ⟨rows, h, rfl⟩
      · rw [answer, answer, withAutomations, hmerge, hmerge']
        refine ⟨rows.map g, h.map fun row hrow => ?_, rfl⟩
        rwa [AutomationRow.Concerns, (hg row).1, (hg row).2] at hrow
    | createAutomation _ | updateAutomation _ | setStatus _ _ | deleteAutomation _ => exact hr.elim
    | _ => exact absurd trivial hleaves

end Service
end Outreach
