import Outreach.Proofs.Database.Contacts
import Outreach.Proofs.Engine.Intake
import Outreach.Proofs.Service.Plays
import Outreach.Proofs.Service.Rejection

/-! Contacts with one owner and phone while requests are answered that make contacts or look for them. As long as nobody's
phone is changed, there are as many as were made, and that is one at most. -/
namespace Outreach
open Program Service

namespace Service
variable {around : Surroundings} {r : Request} {s s' : Service} {x : r.Reply}

/-- A contact is made at that time, or its phone is taken. -/
theorem AnswersAt.createContact {clock : Instant} {c : NewContact} {x : Except RepositoryError Contact}
    (h : AnswersAt around clock (.createContact c) s x s') :
    (∃ contact, x = .ok contact ∧ s.db.createContact clock c = .ok (contact, s'.db)) ∨
      x = .error (Database.phoneConflict c.phone) ∧ s'.db = s.db ∧
        s.db.phoneTaken (s.db.lastContactId + 1) c.userId.text c.phone = true := by
  obtain ⟨network, seed, h⟩ := h
  simp only [answer, tick_fst, tick_db] at h
  cases hmade : s.db.createContact clock c with
  | ok made =>
    rw [hmade] at h
    cases h
    exact .inl ⟨made.1, rfl, rfl⟩
  | error e =>
    rw [hmade] at h
    cases h
    simp only [Database.createContact] at hmade
    split at hmade
    · cases hmade
      exact .inr ⟨rfl, tick_db _, ‹_›⟩
    · cases hmade

theorem Answers.createContact {c : NewContact} {x : Except RepositoryError Contact}
    (h : Answers around (.createContact c) s x s') :
    (∃ now contact, x = .ok contact ∧ s.db.createContact now c = .ok (contact, s'.db)) ∨
      x = .error (Database.phoneConflict c.phone) ∧ s'.db = s.db ∧
        s.db.phoneTaken (s.db.lastContactId + 1) c.userId.text c.phone = true := by
  obtain ⟨clock, h⟩ := h
  exact h.createContact.imp_left fun hmade => ⟨clock, hmade⟩

theorem AnswersAt.updateContact {clock : Instant} {id : Int} {p : ContactPatch} {x : Except RepositoryError Unit}
    (h : AnswersAt around clock (.updateContact id p) s x s') :
    x = .ok () ∧ s.db.updateContact id p = .ok s'.db ∨ (∃ e, x = .error e) ∧ s'.db = s.db := by
  obtain ⟨network, seed, h⟩ := h
  cases x with
  | ok _ =>
    obtain ⟨db, hdb, rfl⟩ := writing_eq_ok h
    exact .inl ⟨rfl, hdb⟩
  | error e =>
    rw [writing_eq_error h]
    exact .inr ⟨⟨e, rfl⟩, rfl⟩

theorem Answers.updateContact {id : Int} {p : ContactPatch} {x : Except RepositoryError Unit}
    (h : Answers around (.updateContact id p) s x s') : s.db.updateContact id p = .ok s'.db ∨ s'.db = s.db := by
  obtain ⟨clock, h⟩ := h
  exact h.updateContact.imp And.right And.right

/-- Connections stay, and contacts are touched by their own requests only. -/
theorem Answers.intake (h : Answers around r s x s') (hr : r.IsIntake) : s'.db.connections = s.db.connections ∧
    ((∃ c, r = .createContact c) ∨ (∃ id p, r = .updateContact id p) ∨
      s'.db.contacts = s.db.contacts ∧ s'.db.lastContactId = s.db.lastContactId) := by
  cases r with
  | createContact c =>
    refine ⟨?_, .inl ⟨c, rfl⟩⟩
    obtain ⟨now, contact, -, hmade⟩ | ⟨-, hsame, -⟩ := h.createContact
    · rw [(Database.createContact_eq hmade).2]
    · rw [hsame]
  | updateContact id p =>
    refine ⟨?_, .inr (.inl ⟨id, p, rfl⟩)⟩
    obtain hupdate | hsame := h.updateContact
    · obtain ⟨g, hrows, -⟩ := Database.updateContact_eq hupdate
      rw [hrows]
    · rw [hsame]
  | insertTask t =>
    obtain ⟨clock, network, seed, h⟩ := h
    simp only [answer, tick_fst, tick_db, Database.insertTask] at h
    split at h <;> cases h <;> exact ⟨rfl, .inr (.inr ⟨rfl, rfl⟩)⟩
  | mergeStats id delta =>
    cases x with
    | ok _ =>
      have hmerge := h.merge
      unfold Database.mergeStats at hmerge
      split at hmerge
      · cases hmerge
      · obtain ⟨old, -, hmerged⟩ := bind_eq_ok.mp hmerge
        rw [← Except.ok.inj hmerged]
        exact ⟨rfl, .inr (.inr ⟨rfl, rfl⟩)⟩
    | error e =>
      obtain ⟨clock, network, seed, h⟩ := h
      rw [writing_eq_error h]
      exact ⟨rfl, .inr (.inr ⟨rfl, rfl⟩)⟩
  | _ =>
    first
    | exact (or_self_iff.mp (show False ∨ False from hr)).elim
    | (obtain ⟨clock, network, seed, h⟩ := h
       obtain rfl : _ = s' := congrArg Prod.snd h
       exact ⟨rfl, .inr (.inr ⟨rfl, rfl⟩)⟩)

end Service

section
variable (owner : Uuid) (phone : String)

def Exchange.made? : Exchange → Option Contact
  | ⟨.createContact c, .ok contact⟩ => if c.userId = owner ∧ c.phone = phone then some contact else none
  | _ => none

structure Database.Held (made : List Contact) (db : Database) : Prop where
  ids : db.ContactIds
  rows : (db.holders owner phone).map (·.id) = made.map (·.id)
  one : made.length ≤ 1

end

namespace Database
variable {owner : Uuid} {phone : String} {db db' : Database} {made : List Contact} {now : Instant} {c : NewContact}
  {contact : Contact}

/-- A contact can be made while nobody holds its phone. -/
theorem ContactIds.taken_iff (h : db.ContactIds) :
    db.phoneTaken (db.lastContactId + 1) owner.text phone = true ↔ db.holders owner phone ≠ [] := by
  have hid : ∀ r ∈ db.contacts, r.id ≠ db.lastContactId + 1 := fun r hr => by
    have hgiven := h.given r hr
    omega
  simp only [phoneTaken, holders, List.any_eq_true, Bool.and_eq_true, bne_iff_ne, beq_iff_eq, ne_eq,
    List.filter_eq_nil_iff, not_forall, not_not]
  constructor
  · intro htaken
    obtain ⟨r, hr, ⟨-, huser⟩, hphone⟩ := htaken
    exact ⟨r, hr, huser, hphone⟩
  · intro hheld
    obtain ⟨r, hr, huser, hphone⟩ := hheld
    exact ⟨r, hr, ⟨hid r hr, huser⟩, hphone⟩

theorem ContactIds.createContact (h : db.ContactIds) (hmade : db.createContact now c = .ok (contact, db')) :
    db'.ContactIds := by
  obtain ⟨-, rfl⟩ := createContact_eq hmade
  have hid := (createContact_fresh hmade).1
  constructor
  · rw [List.map_append, List.map_singleton]
    refine h.different.append (List.nodup_singleton _) (List.disjoint_singleton.mpr fun hmem => ?_)
    obtain ⟨r, hr, hsame⟩ := List.mem_map.mp hmem
    have hgiven := h.given r hr
    have hnew : (ContactRow.ofContact contact).id = contact.id := rfl
    omega
  · refine List.forall_mem_append.mpr ⟨fun r hr => ?_, List.forall_mem_singleton.mpr hid.le⟩
    have hgiven := h.given r hr
    push_cast
    omega

theorem holders_createContact (owner : Uuid) (phone : String) (hmade : db.createContact now c = .ok (contact, db')) :
    db'.holders owner phone = db.holders owner phone ++
      (if c.userId = owner ∧ c.phone = phone then [.ofContact contact] else []) := by
  obtain ⟨⟨huser, hphone, -⟩, rfl⟩ := createContact_eq hmade
  rw [holders, List.filter_append]
  congr 1
  simp [List.filter_cons, ContactRow.ofContact, huser, hphone, Uuid.text_inj]

theorem Held.createContact (h : db.Held owner phone made) (hmade : db.createContact now c = .ok (contact, db')) :
    db'.Held owner phone (made ++ (Exchange.made? owner phone ⟨.createContact c, .ok contact⟩).toList) := by
  have hrows := holders_createContact owner phone hmade
  refine ⟨h.ids.createContact hmade, ?_, ?_⟩
  · rw [hrows, List.map_append, List.map_append, h.rows]
    congr 1
    simp only [Exchange.made?]
    split <;> rfl
  · simp only [Exchange.made?]
    split
    · rename_i hkey
      have hfree : db.holders owner phone = [] := by
        by_contra hheld
        have htaken := h.ids.taken_iff.mpr hheld
        rw [← hkey.1, ← hkey.2, (createContact_fresh hmade).2] at htaken
        cases htaken
      have hnone : made.map (·.id) = [] := by rw [← h.rows, hfree, List.map_nil]
      rw [List.map_eq_nil_iff.mp hnone]
      exact le_refl 1
    · rw [Option.toList_none, List.append_nil]
      exact h.one

theorem Held.updateContact (h : db.Held owner phone made) {contactId : Int} {p : ContactPatch} (hphone : p.phone = none)
    (hupdate : db.updateContact contactId p = .ok db') : db'.Held owner phone made := by
  obtain ⟨g, rfl, hg⟩ := updateContact_rows h.ids hphone hupdate
  have hsame : (db.contacts.map g).map (·.id) = db.contacts.map (·.id) := by
    rw [List.map_map]
    exact List.map_congr_left fun r hr => (hg r hr).1
  have hholders : (Database.holders owner phone { db with contacts := db.contacts.map g }) =
      (db.holders owner phone).map g := by
    rw [holders, holders, List.filter_map]
    congr 1
    apply List.filter_congr
    intro r hr
    obtain ⟨-, huser, hkept⟩ := hg r hr
    simp [huser, hkept]
  refine ⟨⟨hsame ▸ h.ids.different, ?_⟩, ?_, h.one⟩
  · intro r' hr'
    obtain ⟨r, hr, rfl⟩ := List.mem_map.mp hr'
    exact (hg r hr).1.trans_le (h.ids.given r hr)
  · rw [hholders, ← h.rows, List.map_map]
    exact List.map_congr_left fun r hr => (hg r (List.mem_filter.mp hr).1).1

end Database

section
variable {around : Surroundings} {owner : Uuid} {phone : String} {made : List Contact} {r : Request} {x : r.Reply}
  {s s' : Service}

/-- Whatever is asked, contacts that are there keep their ids, owners and phones. -/
theorem Service.Answers.held (h : Answers around r s x s') (hr : r.IsIntake)
    (hphone : ∀ id p, r = .updateContact id p → p.phone = none) (hheld : s.db.Held owner phone made) :
    s'.db.Held owner phone (made ++ (Exchange.made? owner phone ⟨r, x⟩).toList) := by
  by_cases hcreate : ∃ c, r = .createContact c
  · obtain ⟨c, rfl⟩ := hcreate
    obtain ⟨now, contact, rfl, hmade⟩ | ⟨rfl, hsame, -⟩ := h.createContact
    · exact hheld.createContact hmade
    · rw [hsame]
      exact (List.append_nil made).symm ▸ hheld
  have hnone : Exchange.made? owner phone ⟨r, x⟩ = none := by
    unfold Exchange.made?
    split
    · rename_i c contact heq
      exact absurd ⟨c, congrArg Exchange.request heq⟩ hcreate
    · rfl
  rw [hnone, Option.toList_none, List.append_nil]
  obtain hcreated | ⟨id, p, rfl⟩ | ⟨hcontacts, hlast⟩ := (h.intake hr).2
  · exact absurd hcreated hcreate
  · obtain hupdate | hsame := h.updateContact
    · exact hheld.updateContact (hphone id p rfl) hupdate
    · exact hsame ▸ hheld
  · refine ⟨⟨hcontacts ▸ hheld.ids.different, fun r hr => ?_⟩, ?_, hheld.one⟩
    · rw [hlast]
      exact hheld.ids.given r (hcontacts ▸ hr)
    · rw [Database.holders, hcontacts]
      exact hheld.rows

end
end Outreach
