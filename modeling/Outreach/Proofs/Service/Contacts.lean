import Outreach.Proofs.Database.Frames
import Outreach.Proofs.Database.Profiles
import Outreach.Proofs.Engine.Contexts
import Outreach.Proofs.Service.Holders
import Outreach.Proofs.Service.Scene

/-! The table of contacts, from when it is empty. Whatever calls, messages, events and sweeps come up, and however their
steps fall, each row is read as the contact that was last written there, and stays that of the contact that was made. -/
namespace Outreach
open Service

def Exchange.created? : Exchange → Option Contact
  | ⟨.createContact _, .ok contact⟩ => some contact
  | _ => none

def Exchange.write (contacts : List Contact) : Exchange → List Contact
  | ⟨.createContact _, .ok contact⟩ => contacts ++ [contact]
  | ⟨.updateContact id p, .ok _⟩ => contacts.map fun c => if c.id = id then p.written c else c
  | _ => contacts

def lastWritten (told : List Exchange) : List Contact := told.foldl Exchange.write []

theorem lastWritten_append (told : List Exchange) (e : Exchange) :
    lastWritten (told ++ [e]) = e.write (lastWritten told) := by
  rw [lastWritten, List.foldl_append]
  rfl

structure Contact.SameIdentity (c c' : Contact) : Prop where
  id : c'.id = c.id
  userId : c'.userId = c.userId
  createdAt : c'.createdAt = c.createdAt
  lastInteraction : c'.lastInteraction = c.lastInteraction

def Contact.Differs (c c' : Contact) : Prop := c.id ≠ c'.id ∧ ¬ (c.userId = c'.userId ∧ c.phone = c'.phone)

structure Database.SameContacts (a b : Database) : Prop where
  contacts : b.contacts = a.contacts
  lastContactId : b.lastContactId = a.lastContactId

def Request.LeavesContacts : Request → Prop
  | .createContact _ | .updateContact .. => False
  | _ => True

theorem Exchange.write_leaves {e : Exchange} (h : e.request.LeavesContacts) (contacts : List Contact) :
    e.write contacts = contacts ∧ e.created? = none := by
  obtain ⟨r, x⟩ := e
  cases r <;> first | exact h.elim | exact ⟨rfl, rfl⟩

namespace Service
variable {around : Surroundings} {s : Service}

theorem writing_sameContacts {y : Except RepositoryError Database} (h : ∀ db, y = .ok db → s.db.SameContacts db) :
    s.db.SameContacts (s.writing y).2.db := by
  cases y with
  | ok db => exact h db rfl
  | error e => exact ⟨rfl, rfl⟩

theorem answer_sameContacts {r : Request} (h : r.LeavesContacts) : s.db.SameContacts (answer around r s).2.db := by
  by_cases hwrites : r.Writes
  swap
  · rw [answer_db hwrites]
    exact ⟨rfl, rfl⟩
  cases r with
  | createAutomation a =>
    refine writing_sameContacts fun db hdb => ?_
    unfold Database.createAutomation at hdb
    split at hdb
    · cases hdb
    · cases hdb
      exact ⟨rfl, rfl⟩
  | updateAutomation a =>
    refine writing_sameContacts fun db hdb => ?_
    obtain ⟨rows, rfl⟩ := Database.updateAutomation_eq hdb
    exact ⟨rfl, rfl⟩
  | mergeStats id delta =>
    refine writing_sameContacts fun db hdb => ?_
    obtain ⟨text, rfl⟩ := Database.mergeStats_eq hdb
    exact ⟨rfl, rfl⟩
  | updateTask id status error =>
    refine writing_sameContacts fun db hdb => ?_
    rw [Database.updateTask_eq hdb]
    exact ⟨rfl, rfl⟩
  | insertTask t =>
    simp only [answer, Database.insertTask]
    split <;> exact ⟨by rw [storing, tick_db], by rw [storing, tick_db]⟩
  | saveBoard b =>
    simp only [answer, Database.saveBoard]
    split <;> exact ⟨rfl, rfl⟩
  | createConnection c =>
    simp only [answer, tick, freshId]
    exact ⟨rfl, rfl⟩
  | setStatus | deleteAutomation | claimTask => exact ⟨rfl, rfl⟩
  | createContact _ | updateContact _ _ => exact h.elim
  | _ => exact hwrites.elim

end Service

/-- The rows are those of the contacts as they were last written, which differ and can be read, and are those that were
made. -/
structure Stands (told : List Exchange) (db : Database) : Prop where
  rows : db.contacts = (lastWritten told).map ContactRow.ofContact
  sound : ∀ c ∈ lastWritten told, c.Sound
  identity : List.Forall₂ Contact.SameIdentity (told.filterMap Exchange.created?) (lastWritten told)
  given : ∀ c ∈ lastWritten told, c.id ≤ db.lastContactId
  differs : (lastWritten told).Pairwise Contact.Differs

namespace Stands
variable {told : List Exchange} {db db' : Database}

theorem of_empty (h : db.contacts = []) : Stands [] db :=
  ⟨h, List.forall_mem_nil _, .nil, List.forall_mem_nil _, .nil⟩

theorem leave (h : Stands told db) {e : Exchange} (hwrite : e.write (lastWritten told) = lastWritten told)
    (hcreated : e.created? = none) (hsame : db.SameContacts db') : Stands (told ++ [e]) db' := by
  have hlast : lastWritten (told ++ [e]) = lastWritten told := (lastWritten_append told e).trans hwrite
  constructor
  · rw [hlast, hsame.contacts, h.rows]
  · rw [hlast]
    exact h.sound
  · rw [hlast, List.filterMap_append, List.filterMap_cons_none hcreated, List.filterMap_nil, List.append_nil]
    exact h.identity
  · rw [hlast, hsame.lastContactId]
    exact h.given
  · rw [hlast]
    exact h.differs

theorem read (h : Stands told db) : db.contacts.mapM ContactRow.read = .ok (lastWritten told) := by
  rw [h.rows, mapM_eq_ok, List.forall₂_map_left_iff, List.forall₂_same]
  exact fun c hc => (h.sound c hc).read

/-- Only the contact itself may have a phone that is not taken. -/
theorem free (h : Stands told db) {id : Int} {user : Uuid} {phone : String}
    (hfree : db.phoneTaken id user.text phone = false) :
    ∀ c ∈ lastWritten told, c.id ≠ id → ¬ (c.userId = user ∧ c.phone = phone) := by
  rintro c hc hid ⟨rfl, rfl⟩
  refine Bool.false_ne_true (hfree.symm.trans (List.any_eq_true.mpr ⟨.ofContact c, ?_, ?_⟩))
  · exact h.rows ▸ List.mem_map_of_mem hc
  · simp [ContactRow.ofContact, hid]

/-- A contact is made with a higher id, and with a phone that its owner has given to no other. -/
theorem create (h : Stands told db) {now : Instant} {new : NewContact} {contact : Contact} (hnow : now.Ordinary)
    (hplain : now.IsPlain) (hfields : (Json.obj new.customFields).Legible Json.depthLimit)
    (hmade : db.createContact now new = .ok (contact, db')) :
    Stands (told ++ [⟨.createContact new, .ok contact⟩]) db' := by
  obtain ⟨hid, hfree⟩ := Database.createContact_fresh hmade
  obtain ⟨⟨huser, hphone, -⟩, rfl⟩ := Database.createContact_eq hmade
  have hlast : lastWritten (told ++ [⟨.createContact new, .ok contact⟩]) = lastWritten told ++ [contact] :=
    lastWritten_append _ _
  have hnext : ∀ c ∈ lastWritten told, c.id < contact.id := fun c hc => by
    have hgiven := h.given c hc
    omega
  constructor
  · rw [hlast, List.map_append, ← h.rows]
    rfl
  · rw [hlast]
    exact List.forall_mem_append.mpr ⟨h.sound, List.forall_mem_singleton.mpr (.created hnow hplain hfields hmade)⟩
  · rw [hlast, List.filterMap_append]
    exact List.rel_append h.identity (.cons ⟨rfl, rfl, rfl, rfl⟩ .nil)
  · rw [hlast]
    refine List.forall_mem_append.mpr ⟨fun c hc => ?_, List.forall_mem_singleton.mpr ?_⟩
    · exact (hnext c hc).le.trans hid.le
    · exact hid.le
  · rw [hlast, List.pairwise_append]
    refine ⟨h.differs, List.pairwise_singleton _ _, fun c hc c' hc' => ?_⟩
    rw [List.mem_singleton.mp hc', Contact.Differs, huser, hphone]
    exact ⟨(hnext c hc).ne, h.free hfree c hc (hid ▸ (hnext c hc).ne)⟩

theorem nodup (h : Stands told db) : ((lastWritten told).map (·.id)).Nodup :=
  List.pairwise_map.mpr (h.differs.imp fun hdiffers => hdiffers.1)

/-- The contact with that id, whose row is found, is the one that is read. -/
theorem found (h : Stands told db) {id : Int} {r : ContactRow} {old : Contact}
    (hfind : db.contacts.find? (·.id == id) = some r) (hread : r.read = .ok old) :
    old ∈ lastWritten told ∧ old.id = id ∧ r = .ofContact old := by
  have hid : r.id = id := by simpa using List.find?_some hfind
  obtain ⟨c, hc, rfl⟩ := List.mem_map.mp (h.rows ▸ List.mem_of_find?_eq_some hfind)
  obtain rfl := Except.ok.inj ((h.sound c hc).read.symm.trans hread)
  exact ⟨hc, hid, rfl⟩

/-- A patch is applied to the contact as it was last written. -/
theorem update (h : Stands told db) {id : Int} {p : ContactPatch} (hp : CustomFields p.customFields)
    (hupdate : db.updateContact id p = .ok db') : Stands (told ++ [⟨.updateContact id p, .ok ()⟩]) db' := by
  obtain ⟨r, old, hfind, hread, ⟨hempty, rfl⟩ | ⟨-, hfree, rfl⟩⟩ := Database.updateContact_eq_ok hupdate
  · refine h.leave ?_ rfl ⟨rfl, rfl⟩
    refine (List.map_congr_left fun c _ => ?_).trans (List.map_id _)
    rw [ContactPatch.written_of_isEmpty hempty, ite_self]
    rfl
  · obtain ⟨hold, hid, rfl⟩ := h.found hfind hread
    have hlast : lastWritten (told ++ [⟨.updateContact id p, .ok ()⟩]) =
        (lastWritten told).map fun c => if c.id = id then p.written c else c := lastWritten_append _ _
    have honly : ∀ c ∈ lastWritten told, c.id = id → c = old := fun c hc hcid =>
      List.inj_on_of_nodup_map h.nodup hc hold (hcid.trans hid.symm)
    have hother : ∀ c ∈ lastWritten told, c.id ≠ id → ¬ (c.userId = old.userId ∧ c.phone = (p.written old).phone) :=
      h.free hfree
    constructor
    · rw [hlast, h.rows, Database.change, List.map_map, List.map_map]
      refine List.map_congr_left fun c hc => ?_
      by_cases hcid : c.id = id
      · rw [honly c hc hcid]
        simp [hid, ContactRow.withColumnsOf, ContactRow.ofContact, ContactPatch.written, ContactPatch.apply]
      · simp [hcid, ContactRow.ofContact]
    · rw [hlast]
      refine List.forall_mem_map.mpr fun c hc => ?_
      split
      · exact (h.sound c hc).written hp
      · exact h.sound c hc
    · rw [hlast, List.filterMap_append, List.filterMap_cons_none rfl, List.filterMap_nil, List.append_nil,
        List.forall₂_map_right_iff]
      refine h.identity.imp fun c c' hsame => ?_
      split
      · exact ⟨hsame.id, hsame.userId, hsame.createdAt, hsame.lastInteraction⟩
      · exact hsame
    · rw [hlast]
      refine List.forall_mem_map.mpr fun c hc => ?_
      split <;> exact h.given c hc
    · rw [hlast, List.pairwise_map]
      -- Two contacts differ afterwards too: not both are the patched one, and its phone is no other contact's.
      refine h.differs.imp_of_mem fun {c c'} hc hc' hdiffers => ?_
      split <;> split
      · rename_i hcid hcid'
        exact absurd (hcid.trans hcid'.symm) hdiffers.1
      · rename_i hcid hcid'
        refine ⟨hdiffers.1, fun hsame => hother c' hc' hcid' ?_⟩
        rw [honly c hc hcid] at hsame
        exact ⟨hsame.1.symm, hsame.2.symm⟩
      · rename_i hcid hcid'
        refine ⟨hdiffers.1, fun hsame => hother c hc hcid ?_⟩
        rwa [honly c' hc' hcid'] at hsame
      · exact hdiffers

end Stands

section
variable {around : Surroundings} (settings : EngineSettings) (limit : Nat)

def Exchange.replied? : Exchange → Option Json
  | ⟨.sendHttp .., .ok reply⟩ => reply.json?
  | _ => none

/-- What is stored beside the columns of a contact can stand there and be read again, given that replies have numbers that
are read back as they are. -/
def Terms.profiles : Terms where
  asks
    | .createContact new => (Json.obj new.customFields).Legible Json.depthLimit
    | .updateContact _ p => CustomFields p.customFields
    | _ => True
  answers r x := ∀ body ∈ Exchange.replied? ⟨r, x⟩, ∀ n ∈ body.numbers, n.reread? = some n

/-- Whatever a run does, its patches set fields that were read from replies. -/
theorem RunFrame.needs_profiles (f : RunFrame) : f.Needs settings .profiles where
  allows :=
    { outgoing := fun r hr => by cases r <;> first | exact trivial | exact hr.elim
      find := trivial
      update := fun p hp => by
        obtain hnone | ⟨_, _, reply, mappings, body, hreply, hbody, rfl⟩ := hp
        · exact (congrArg CustomFields hnone).mpr .nil
        · exact HttpRequestSpec.patchFrom_fields (Json.legible_of_parse? hbody (hreply body hbody)) mappings
      target := fun _ _ => trivial }
  insert _ _ _ := trivial
  spawn _ _ _ _ _ := trivial
  merge _ := trivial

theorem fire_profiles (event : Event) (contactId : Int) (scope : Scope) :
    Attempt.Meets .profiles (fun _ => True) (fire settings limit event contactId scope) :=
  fire_meets_within settings limit trivial (fun _ => trivial) (fun _ _ => trivial) fun _ _ _ _ _ _ _ =>
    RunFrame.run_meets_of (RunFrame.needs_profiles settings _) limit none

/-- Besides what its events lead to, a call makes a contact of a body that was read. -/
theorem Intake.handle_profiles (webhookId : String) {body : Json} (h : body.Legible Json.depthLimit) :
    Attempt.Meets .profiles (fun _ => True) (handle settings limit webhookId body) := by
  refine handle_meets_within settings limit webhookId (fun r hr hnew => ?_) (fun owner phone boards => ?_)
    fun _ _ e _ contactId scope => fire_profiles settings limit e contactId scope
  · cases r with
    | createContact new => exact absurd rfl (hnew new)
    | updateContact => exact hr.elim
    | _ => exact trivial
  · cases body with
    | obj ms => exact (CustomFields.strip h).legible_obj
    | _ => exact CustomFields.nil.legible_obj

/-- A call comes with a body that was read from its text and whose numbers are read back as they are; the clock shows a
time in a year of four digits. -/
def Move.IsPlain : Move → Prop
  | .begin (.call _ body) => (∃ text, Json.parse? text = some body) ∧ ∀ n ∈ body.numbers, n.reread? = some n
  | .answer _ clock _ _ => clock.Ordinary ∧ clock.IsPlain
  | _ => True

theorem Move.IsPlain.suits {m : Move} (h : m.IsPlain) :
    m.Suits around (fun clock => clock.Ordinary ∧ clock.IsPlain) .profiles := by
  cases m with
  | begin o =>
    cases o with
    | event e contactId scope => exact Program.meets_bind (fire_profiles _ _ e contactId scope) fun _ _ => trivial
    | call webhookId body =>
      obtain ⟨⟨text, htext⟩, hnumbers⟩ := h
      refine Program.meets_bind (Intake.handle_profiles _ _ webhookId ?_) fun _ _ => trivial
      exact Json.legible_of_parse? htext hnumbers
    | notification n =>
      refine Program.meets_bind (Inbox.process_meets_of _ _ fun text _ => ?_) fun _ _ => trivial
      exact Inbox.handle_meets_of _ _ trivial (fire_profiles _ _ _)
    | sweep =>
      refine Program.meets_bind (sweep_meets_of _ _ trivial (fun _ => trivial) fun _ _ _ t _ => ?_) fun _ _ => trivial
      refine ScheduledTask.settle_meets_of _ _ trivial (fun _ => ?_) (fun _ _ _ => trivial) fun _ _ _ _ => trivial
      exact ScheduledTask.resume_meets_within _ _ trivial trivial trivial fun _ _ _ _ _ => RunFrame.needs_profiles _ _
  | answer => exact h
  | forward | fail => exact trivial

theorem ForwardedRun.execute_profiles (run : ForwardedRun) :
    (run.execute settings limit).Meets .profiles fun _ => True :=
  Program.meets_bind (RunFrame.run_meets_of (RunFrame.needs_profiles settings _) limit none) fun _ _ => trivial

namespace Scene

/-- Whatever is answered, the contacts stand as they were last written. -/
theorem regime_profiles {told : List Exchange}
    (hreplies : ∀ e ∈ told, ∀ body ∈ e.replied?, ∀ n ∈ body.numbers, n.reread? = some n) :
    Regime around (fun clock => clock.Ordinary ∧ clock.IsPlain) told .profiles Stands where
  forwards run _ _ := Program.meets_bind (run.execute_profiles _ _) fun _ _ => trivial
  answered := by
    intro l clock r x a b hclock hasks htold hanswers hstands
    refine ⟨hreplies _ htold, ?_⟩
    by_cases hleaves : r.LeavesContacts
    · obtain ⟨network, seed, hanswer⟩ := hanswers
      have hsame := @Service.answer_sameContacts { around with network := network }
        { a with clock := clock, seed := seed } r hleaves
      rw [hanswer] at hsame
      obtain ⟨hwrite, hcreated⟩ := Exchange.write_leaves (e := ⟨r, x⟩) hleaves (lastWritten l)
      exact hstands.leave hwrite hcreated hsame
    · cases r with
      | createContact new =>
        obtain ⟨contact, rfl, hmade⟩ | ⟨rfl, hsame, -⟩ := hanswers.createContact
        · exact hstands.create hclock.1 hclock.2 hasks hmade
        · exact hstands.leave rfl rfl (hsame ▸ ⟨rfl, rfl⟩)
      | updateContact id p =>
        obtain ⟨rfl, hupdate⟩ | ⟨⟨e, rfl⟩, hsame⟩ := hanswers.updateContact
        · exact hstands.update hasks hupdate
        · exact hstands.leave rfl rfl (hsame ▸ ⟨rfl, rfl⟩)
      | _ => exact absurd trivial hleaves
  failed := by
    intro l r x db _ htold hfault hstands
    refine ⟨hreplies _ htold, ?_⟩
    by_cases hleaves : r.LeavesContacts
    · obtain ⟨hwrite, hcreated⟩ := Exchange.write_leaves (e := ⟨r, x⟩) hleaves (lastWritten l)
      exact hstands.leave hwrite hcreated ⟨rfl, rfl⟩
    · cases r with
      | createContact | updateContact =>
        obtain ⟨e, rfl⟩ := hfault
        exact hstands.leave rfl rfl ⟨rfl, rfl⟩
      | _ => exact absurd trivial hleaves

variable {service : Service} {moves : List Move} {s : Scene}

/-- From when there are no contacts, whatever comes up and in whatever order its steps are: each row is read as the contact
that was last written there, with different tags, and with custom fields that stand beside the columns and nest no deeper
than what can be read. The contact is still the one that was made there, and no two have one owner and phone. -/
theorem contacts_play (hempty : service.db.contacts = []) (hmoves : ∀ m ∈ moves, m.IsPlain)
    (hs : s = (Scene.mk service [] []).play around moves)
    (hreplies : ∀ e ∈ s.log, ∀ body ∈ e.replied?, ∀ n ∈ body.numbers, n.reread? = some n) :
    s.service.db.contacts.mapM ContactRow.read = .ok (lastWritten s.log) ∧
    (∀ c ∈ lastWritten s.log, c.tags.Nodup ∧ (∀ m ∈ c.customFields, m.1 ∉ Contact.standardFields) ∧
      (Json.obj c.customFields).depth ≤ Json.depthLimit) ∧
    List.Forall₂ Contact.SameIdentity (s.log.filterMap Exchange.created?) (lastWritten s.log) ∧
    (lastWritten s.log).Pairwise Contact.Differs := by
  have hstart : (Scene.mk service [] []).Keeps .profiles Stands :=
    ⟨List.forall_mem_nil _, fun _ _ => ⟨trivial, fun _ hbody => by cases hbody⟩, List.forall_mem_nil _, .of_empty hempty⟩
  have hstands : Stands s.log s.service.db := by
    have hplay := hstart.play (@regime_profiles around _ hreplies) fun m hm => (hmoves m hm).suits
    rw [← hs] at hplay
    exact (hplay (List.Subset.refl _)).stored
  refine ⟨hstands.read, fun c hc => ?_, hstands.identity, hstands.differs⟩
  obtain ⟨htags, hfields, -, -⟩ := hstands.sound c hc
  exact ⟨htags, hfields.beside, hfields.legible_obj.depth⟩

def signing : Automation :=
  ⟨default, default, "sign", .active,
    [⟨"t", .trigger (.webhook "h" false none), none⟩, ⟨"a", .action (.addTag "b"), none⟩], [⟨none, "t", "a", none⟩],
    ⟨1717408800, 0⟩, true, false, []⟩

def unvisited : Service :=
  { Service.holding (.trial signing 0) with db := { (Service.holding (.trial signing 0)).db with contacts := [] } }

def signUp : Json :=
  .obj [("phone", .str "5581977776666"), ("plan", .obj [("name", .str "pro")]), ("tags", .strs ["a", "a"])]

theorem parse?_signUp : Json.parse? signUp.text = some signUp := by
  have hkeys : ["phone", "plan", "tags"].Pairwise (· < ·) := by decide
  have hplan : (Json.obj [("name", .str "pro")]).Canonical := ⟨List.pairwise_singleton _ _, trivial, trivial⟩
  have hcanonical : signUp.Canonical := ⟨hkeys, trivial, hplan, ⟨trivial, trivial, trivial⟩, trivial⟩
  rw [Json.parse?_text hcanonical, Json.reading?_eq_self]
  exact ⟨by decide, List.forall_mem_nil _⟩

def signedUp : Scene :=
  (Scene.mk unvisited [] []).play .offline
    (.begin (.call "h" signUp) :: .replicate 9 (.answer 0 ⟨1717408800, 0⟩ .unreachable 0))

theorem signedUp_written : (lastWritten signedUp.log).map (fun c => (c.tags, (Json.obj c.customFields).text)) =
      [(["a", "b"], (Json.obj [("plan", .obj [("name", .str "pro")])]).text)] ∧
    ∀ e ∈ signedUp.log, ∀ body ∈ e.replied?, ∀ n ∈ body.numbers, n.reread? = some n := by
  decide +kernel

/-- Of the tags of the body one is left, and the other one is added. -/
theorem contacts_play_signedUp : (lastWritten signedUp.log).map (fun c => (c.tags, (Json.obj c.customFields).text)) =
      [(["a", "b"], (Json.obj [("plan", .obj [("name", .str "pro")])]).text)] ∧
    signedUp.service.db.contacts.mapM ContactRow.read = .ok (lastWritten signedUp.log) := by
  obtain ⟨hwritten, hreplies⟩ := signedUp_written
  refine ⟨hwritten, (contacts_play rfl (List.forall_mem_cons.mpr ⟨?_, fun m hm => ?_⟩) rfl hreplies).1⟩
  · exact ⟨⟨_, parse?_signUp⟩, List.forall_mem_nil _⟩
  · rw [List.eq_of_mem_replicate hm]
    exact ⟨by decide, by decide⟩

end Scene
end
end Outreach
