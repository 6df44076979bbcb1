import Outreach.Proofs.Database.Contacts
import Outreach.Proofs.Engine.Exchange
import Outreach.Proofs.Service.Answers

/-! What a piece of work may change in a store, and that requests within its remit change no more. -/
namespace Outreach

section
variable {α : Type} {may : α → Prop} {same : α → α → Prop} {as bs cs : List α}

def Changed (may : α → Prop) (same : α → α → Prop) (as bs : List α) : Prop :=
  List.Forall₂ (fun a b => b = a ∨ may a ∧ same a b) as bs

theorem Changed.refl (as : List α) : Changed may same as as := List.forall₂_same.mpr fun _ _ => .inl rfl

theorem Changed.mono {may' : α → Prop} (h : Changed may same as bs) (hmay : ∀ a, may a → may' a) :
    Changed may' same as bs :=
  h.imp fun _ _ hab => hab.imp_right fun hab => ⟨hmay _ hab.1, hab.2⟩

theorem Changed.trans (hsame : ∀ a b c, same a b → same b c → same a c) (h : Changed may same as bs)
    (h' : Changed may same bs cs) : Changed may same as cs := by
  induction h generalizing cs with
  | nil => exact h'
  | @cons a b as bs hab hrest ih =>
    cases h' with
    | @cons _ c _ cs hbc hrest' =>
      refine .cons ?_ (ih hrest')
      obtain rfl | ⟨ha, hab⟩ := hab
      · exact hbc
      · obtain rfl | ⟨-, hbc⟩ := hbc
        · exact .inr ⟨ha, hab⟩
        · exact .inr ⟨ha, hsame a b c hab hbc⟩

theorem Changed.exists_append {as' : List α} (h : Changed may same (as ++ as') cs) :
    ∃ bs bs', cs = bs ++ bs' ∧ Changed may same as bs ∧ Changed may same as' bs' := by
  induction as generalizing cs with
  | nil => exact ⟨[], cs, rfl, .nil, h⟩
  | cons a as ih =>
    cases h with
    | cons hab hrest =>
      obtain ⟨bs, bs', rfl, hbs, hbs'⟩ := ih hrest
      exact ⟨_ :: bs, bs', rfl, .cons hab hbs, hbs'⟩

theorem Changed.exists_of_mem (h : Changed may same as bs) {b : α} (hb : b ∈ bs) :
    ∃ a ∈ as, b = a ∨ may a ∧ same a b := by
  induction h with
  | nil => cases hb
  | cons hab hrest ih =>
    obtain rfl | hb := List.mem_cons.mp hb
    · exact ⟨_, List.mem_cons_self, hab⟩
    · obtain ⟨a, ha, hab⟩ := ih hb
      exact ⟨a, List.mem_cons_of_mem _ ha, hab⟩

/-- What all rows of a table have in common that changes do not touch. -/
theorem Changed.forall_mem {P : α → Prop} (hP : ∀ a b, same a b → P a → P b) (h : Changed may same as bs)
    (has : ∀ a ∈ as, P a) : ∀ b ∈ bs, P b := by
  induction h with
  | nil => exact List.forall_mem_nil _
  | @cons a b as bs hab hrest ih =>
    obtain ⟨ha, has⟩ := List.forall_mem_cons.mp has
    refine List.forall_mem_cons.mpr ⟨?_, ih has⟩
    obtain rfl | ⟨-, hab⟩ := hab
    · exact ha
    · exact hP a b hab ha

theorem changed_change {p : α → Bool} {g : α → α} (hp : ∀ a, p a = true → may a) (hg : ∀ a, same a (g a))
    (rows : List α) : Changed may same rows (Database.change p g rows).2 := by
  refine List.forall₂_map_right_iff.mpr (List.forall₂_same.mpr fun a _ => ?_)
  split
  · exact .inr ⟨hp a ‹_›, hg a⟩
  · exact .inl rfl

theorem changed_of_none {p : α → Bool} {rows : List α} (h : rows.any p = false) (g : α → α) :
    Changed may same rows (Database.change p g rows).2 := by
  refine List.forall₂_map_right_iff.mpr (List.forall₂_same.mpr fun a ha => .inl (if_neg fun hp => ?_))
  exact Bool.false_ne_true (h.symm.trans (List.any_eq_true.mpr ⟨a, ha, hp⟩))

end

structure ContactRow.SameHolder (r r' : ContactRow) : Prop where
  id : r'.id = r.id
  userId : r'.userId = r.userId
  lastInteraction : r'.lastInteraction = r.lastInteraction
  createdAt : r'.createdAt = r.createdAt

theorem ContactRow.SameHolder.trans {r₁ r₂ r₃ : ContactRow} (h : r₁.SameHolder r₂) (h' : r₂.SameHolder r₃) :
    r₁.SameHolder r₃ :=
  ⟨h'.id.trans h.id, h'.userId.trans h.userId, h'.lastInteraction.trans h.lastInteraction,
    h'.createdAt.trans h.createdAt⟩

def TaskRow.SameTask (r r' : TaskRow) : Prop := r' = { r with status := r'.status, errorMessage := r'.errorMessage }

def AutomationRow.SameBut (r r' : AutomationRow) : Prop := r' = { r with executionStats := r'.executionStats }

/-- What a piece of work has to do with: contacts with their owners, tasks that it may claim and those that it settles, and
automations that it runs. -/
structure Remit where
  contact : Int → Prop
  owner : Int → Option Uuid
  claim : Int → Prop
  task : Int → Prop
  automation : Uuid → Prop

namespace Remit
variable (remit : Remit)

def Allows : Request → Prop
  | .updateContact id _ => remit.contact id
  | .insertTask t => remit.contact t.contactId ∧ remit.owner t.contactId = some t.userId
  | .claimTask id => remit.claim id
  | .updateTask id _ _ => remit.task id
  | .mergeStats id _ => remit.automation id
  | .spawn run => remit.contact run.contact.id ∧ remit.owner run.contact.id = some run.contact.userId
  | .createAutomation _ | .updateAutomation _ | .setStatus .. | .deleteAutomation _ => False
  | .createContact _ | .saveBoard _ | .createConnection _ => False
  | _ => True

/-- From `a` to `b` only rows change that the remit covers, and only as runs change them; new tasks come last, and each is
for a contact of the remit and for its owner. -/
structure Frame (a b : Database) : Prop where
  contacts : Changed (fun r => remit.contact r.id) ContactRow.SameHolder a.contacts b.contacts
  automations : Changed (fun r => ∃ id, remit.automation id ∧ r.id = id.text) AutomationRow.SameBut a.automations b.automations
  tasks : ∃ kept new, b.tasks = kept ++ new ∧ Changed (fun r => remit.task r.id) TaskRow.SameTask a.tasks kept ∧
    ∀ row ∈ new, remit.contact row.contactId ∧ ∃ user, remit.owner row.contactId = some user ∧ row.userId = user.text
  connections : b.connections = a.connections
  boards : b.boards = a.boards
  lastContactId : b.lastContactId = a.lastContactId

variable {remit} {a b c : Database}

theorem Frame.refl (a : Database) : remit.Frame a a :=
  ⟨.refl _, .refl _, ⟨a.tasks, [], (List.append_nil _).symm, .refl _, List.forall_mem_nil _⟩, rfl, rfl, rfl⟩

theorem sameTask_trans (r₁ r₂ r₃ : TaskRow) (h : r₁.SameTask r₂) (h' : r₂.SameTask r₃) : r₁.SameTask r₃ := by
  unfold TaskRow.SameTask at *
  rw [h', h]

theorem sameBut_trans (r₁ r₂ r₃ : AutomationRow) (h : r₁.SameBut r₂) (h' : r₂.SameBut r₃) : r₁.SameBut r₃ := by
  unfold AutomationRow.SameBut at *
  rw [h', h]

theorem Frame.trans (h : remit.Frame a b) (h' : remit.Frame b c) : remit.Frame a c where
  contacts := h.contacts.trans (fun _ _ _ => ContactRow.SameHolder.trans) h'.contacts
  automations := h.automations.trans sameBut_trans h'.automations
  tasks := by
    obtain ⟨kept, new, hb, hkept, hnew⟩ := h.tasks
    obtain ⟨later, more, hc, hlater, hmore⟩ := h'.tasks
    rw [hb] at hlater
    obtain ⟨still, once, rfl, hstill, honce⟩ := hlater.exists_append
    refine ⟨still, once ++ more, by rw [hc, List.append_assoc], hkept.trans sameTask_trans hstill, ?_⟩
    refine List.forall_mem_append.mpr ⟨honce.forall_mem (fun r r' hsame hr => ?_) hnew, hmore⟩
    rw [hsame]
    exact hr
  connections := h'.connections.trans h.connections
  boards := h'.boards.trans h.boards
  lastContactId := h'.lastContactId.trans h.lastContactId

end Remit

def Database.owner? (db : Database) (id : Int) : Option Uuid :=
  (db.contacts.find? (·.id == id)).bind fun r => Uuid.parse? r.userId

/-- A contact that is found is the one of that id, and its owner's. -/
theorem Database.owner?_of_found {db : Database} {id : Int} {c : Contact} (h : db.contact? id = .ok (some c)) :
    c.id = id ∧ db.owner? id = some c.userId := by
  unfold contact? at h
  unfold owner?
  cases hfind : db.contacts.find? (·.id == id) with
  | none => rw [hfind] at h; cases h
  | some r =>
    rw [hfind, Option.mapM_some] at h
    obtain ⟨c', hread, hc⟩ := map_eq_ok.mp h
    cases hc
    have hid : r.id = id := by simpa using List.find?_some hfind
    exact ⟨(ContactRow.kept_of_read hread).1.trans hid, Stored.parse?_of_uuid (ContactRow.holds_of_read hread).userId⟩

theorem Changed.find? {α : Type} {may : α → Prop} {same : α → α → Prop} {as bs : List α} {p : α → Bool}
    (hp : ∀ a b, same a b → p b = p a) (h : Changed may same as bs) :
    Option.Rel (fun a b => b = a ∨ may a ∧ same a b) (as.find? p) (bs.find? p) := by
  induction h with
  | nil => exact .none
  | @cons a b as bs hab hrest ih =>
    have hsame : p b = p a := by
      obtain rfl | ⟨-, hab⟩ := hab
      · rfl
      · exact hp a b hab
    rw [List.find?_cons, List.find?_cons, hsame]
    cases p a with
    | true => exact .some hab
    | false => exact ih

theorem Remit.Frame.owner? {remit : Remit} {a b : Database} (h : remit.Frame a b) : b.owner? = a.owner? := by
  funext id
  unfold Database.owner?
  have hfind := h.contacts.find? (p := (·.id == id)) fun r r' hsame => by rw [hsame.id]
  generalize a.contacts.find? (·.id == id) = found at hfind
  generalize b.contacts.find? (·.id == id) = found' at hfind
  cases hfind with
  | none => rfl
  | some hr =>
    obtain rfl | ⟨-, hr⟩ := hr
    · rfl
    · rw [Option.bind_some, Option.bind_some, hr.userId]

def Request.Writes : Request → Prop
  | .createAutomation _ | .updateAutomation _ | .setStatus .. | .mergeStats .. | .deleteAutomation _ => True
  | .createContact _ | .updateContact .. | .insertTask _ | .claimTask _ | .updateTask .. => True
  | .saveBoard _ | .createConnection _ => True
  | _ => False

namespace Database
variable {db db' : Database}

theorem mergeStats_eq {id : Uuid} {delta : ExecutionStats} (h : db.mergeStats id delta = .ok db') :
    ∃ text, db' = { db with
      automations := (change (·.id == id.text) (fun r => { r with executionStats := text }) db.automations).2 } := by
  unfold mergeStats at h
  split at h
  · cases h
  · obtain ⟨old, -, h⟩ := bind_eq_ok.mp h
    cases h
    exact ⟨_, rfl⟩

theorem updateTask_eq {id : Int} {status : TaskStatus} {error : Option String}
    (h : db.updateTask id status error = .ok db') : db' = { db with
      tasks := (change (·.id == id) (fun r => { r with status := status.text, errorMessage := error }) db.tasks).2 } := by
  unfold updateTask at h
  split at h
  · rename_i rows hrows
    cases h
    rw [hrows]
  · cases h

end Database

namespace Service
open Database
variable {around : Surroundings} {s : Service}

theorem answer_db {r : Request} (h : ¬ r.Writes) : (answer around r s).2.db = s.db := by
  cases r with
  | pick n =>
    obtain ⟨m, seed, hdraw⟩ := draw_eq (s := s) n
    rw [answer, hdraw]
  | now => simp only [answer, tick]
  | freshToken => simp only [answer, freshId]
  | freshIdentity => simp only [answer, tick, freshId]
  | _ => first | rfl | exact absurd trivial h

section
variable {remit : Remit} {y : Except RepositoryError Database}

theorem writing_frame (hy : ∀ db, y = .ok db → remit.Frame s.db db) : remit.Frame s.db (s.writing y).2.db := by
  cases y with
  | ok db => exact hy db rfl
  | error e => exact .refl _

/-- An answer within the remit changes no more than that covers, provided that a claim that is won is within it. -/
theorem answer_frame {r : Request} (hr : remit.Allows r)
    (hclaim : ∀ id, remit.claim id → Exchange.mk r (answer around r s).1 = ⟨.claimTask id, .ok true⟩ → remit.task id) :
    remit.Frame s.db (answer around r s).2.db := by
  by_cases hwrites : r.Writes
  swap
  · rw [answer_db hwrites]
    exact .refl _
  have hkept : remit.Frame s.db s.db := .refl _
  -- Of the requests that write, those outside every remit are not allowed in the first place.
  cases r with
  | updateContact id p =>
    refine writing_frame fun db hdb => ?_
    obtain ⟨g, rfl, hg⟩ := updateContact_eq hdb
    have hcontacts : Changed (fun r => remit.contact r.id) ContactRow.SameHolder s.db.contacts
        (change (·.id == id) g s.db.contacts).2 := by
      refine changed_change (fun r hid => ?_) (fun r => ?_) _
      · rw [beq_iff_eq.mp hid]
        exact hr
      · obtain ⟨c, hsame | hsame⟩ := hg r <;> rw [hsame] <;> exact ⟨rfl, rfl, rfl, rfl⟩
    exact { hkept with contacts := hcontacts }
  | mergeStats id delta =>
    refine writing_frame fun db hdb => ?_
    obtain ⟨text, rfl⟩ := mergeStats_eq hdb
    have hautomations : Changed (fun r => ∃ id, remit.automation id ∧ r.id = id.text) AutomationRow.SameBut
        s.db.automations (change (·.id == id.text) (fun r => { r with executionStats := text }) s.db.automations).2 := by
      refine changed_change (fun r hid => ?_) (fun r => ?_) _
      · exact ⟨id, hr, beq_iff_eq.mp hid⟩
      · rfl
    exact { hkept with automations := hautomations }
  | insertTask t =>
    simp only [answer, tick_fst, tick_db, Database.insertTask]
    split
    · refine { hkept with tasks := ⟨s.db.tasks, _, rfl, .refl _, List.forall_mem_singleton.mpr ?_⟩ }
      exact ⟨hr.1, t.userId, hr.2, rfl⟩
    · rw [storing, tick_db]
      exact hkept
  | claimTask id =>
    have htasks : Changed (fun row => remit.task row.id) TaskRow.SameTask s.db.tasks (s.db.claimTask id).2.tasks := by
      cases hwon : s.db.tasks.any fun row => row.id == id && isPending row with
      | true =>
        have hid : remit.task id := hclaim id hr (by simp only [answer, keeping, Database.claimTask, change, hwon])
        refine changed_change (fun row hrow => ?_) (fun row => ?_) _
        · simp only [Bool.and_eq_true, beq_iff_eq] at hrow
          rw [hrow.1]
          exact hid
        · rfl
      | false => exact changed_of_none hwon _
    exact { hkept with tasks := ⟨_, [], (List.append_nil _).symm, htasks, List.forall_mem_nil _⟩ }
  | updateTask id status error =>
    refine writing_frame fun db hdb => ?_
    rw [updateTask_eq hdb]
    have htasks : Changed (fun row => remit.task row.id) TaskRow.SameTask s.db.tasks (change (·.id == id)
        (fun row => { row with status := status.text, errorMessage := error }) s.db.tasks).2 := by
      refine changed_change (fun row hid => ?_) (fun row => ?_) _
      · rw [beq_iff_eq.mp hid]
        exact hr
      · rfl
    exact { hkept with tasks := ⟨_, [], (List.append_nil _).symm, htasks, List.forall_mem_nil _⟩ }
  | _ => first | exact hr.elim | exact hwrites.elim

end
end Service
end Outreach
