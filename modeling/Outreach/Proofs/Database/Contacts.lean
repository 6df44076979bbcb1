import Mathlib
import Outreach.Database.Basic
import Outreach.Engine.Intake
import Outreach.Proofs.Attempts
import Outreach.Proofs.Json.Numeral

/-! Contacts made of the body of a webhook request. -/
namespace Outreach

/-- The missing tags come last, each where it comes first. -/
theorem Action.withMissing_eq (tags more : List String) :
    withMissing tags more = tags ++ (more.filter fun t => !tags.contains t).eraseDups := by
  unfold withMissing
  induction more generalizing tags with
  | nil => simp
  | cons t more ih =>
    rw [List.foldl_cons, List.filter_cons]
    cases hseen : tags.contains t with
    | true => exact ih tags
    | false =>
      have hrest : (more.filter fun u => !(tags ++ [t]).contains u) =
          (more.filter fun u => !tags.contains u).filter fun u => !u == t := by
        rw [List.filter_filter]
        apply List.filter_congr
        intro u _
        cases hu : u == t <;> simp_all
      rw [if_neg Bool.false_ne_true, ih, hrest, Bool.not_false, if_pos rfl, List.eraseDups_cons, List.append_assoc,
        List.singleton_append]

theorem Database.distinct_eq (tags : List String) : distinct tags = tags.eraseDups := by
  have hmissing : distinct tags = Action.withMissing [] tags := rfl
  rw [hmissing, Action.withMissing_eq, List.nil_append]
  simp

def ContactPatch.written (p : ContactPatch) (old : Contact) : Contact :=
  { p with tags := p.tags.map Database.distinct }.apply old

theorem ContactPatch.written_of_isEmpty {p : ContactPatch} (h : p.isEmpty = true) (c : Contact) : p.written c = c := by
  obtain ⟨name, phone, tags, crmStageId, isOptedOut, is24hWindowOpen, customFields⟩ := p
  simp only [isEmpty, Bool.and_eq_true, Option.isNone_iff_eq_none, List.isEmpty_iff] at h
  obtain ⟨⟨⟨⟨⟨⟨rfl, rfl⟩, rfl⟩, rfl⟩, rfl⟩, rfl⟩, rfl⟩ := h
  rfl

namespace ContactRow
open Stored
variable {r : ContactRow} {c : Contact}

structure Holds (r : ContactRow) (c : Contact) : Prop where
  is24hWindowOpen : flag "is_24h_window_open" r.is24hWindowOpen = .ok c.is24hWindowOpen
  isOptedOut : flag "is_opted_out_of_automations" r.isOptedOut = .ok c.isOptedOut
  lastInteraction : r.lastInteraction.mapM instant = .ok c.lastInteraction
  id : r.id = c.id
  userId : uuid r.userId = .ok c.userId
  name : r.name = c.name
  phone : r.phone = c.phone
  tags : document "tags" (Decode.list Decode.string) r.tags = .ok c.tags
  crmStageId : r.crmStageId = c.crmStageId
  createdAt : instant r.createdAt = .ok c.createdAt
  customFields : document "custom_fields" (Decode.keyed Decode.json) r.customFields = .ok c.customFields

theorem holds_of_read (h : r.read = .ok c) : r.Holds c := by
  obtain ⟨is24hWindowOpen, hwindow, h⟩ := bind_eq_ok.mp h
  obtain ⟨isOptedOut, hout, h⟩ := bind_eq_ok.mp h
  obtain ⟨lastInteraction, hlast, h⟩ := bind_eq_ok.mp h
  obtain ⟨userId, huser, h⟩ := bind_eq_ok.mp h
  obtain ⟨tags, htags, h⟩ := bind_eq_ok.mp h
  obtain ⟨createdAt, hcreated, h⟩ := bind_eq_ok.mp h
  obtain ⟨customFields, hfields, h⟩ := bind_eq_ok.mp h
  cases h
  exact ⟨hwindow, hout, hlast, rfl, huser, rfl, rfl, htags, rfl, hcreated, hfields⟩

theorem Holds.read (h : r.Holds c) : r.read = .ok c := by
  have hid := h.id
  have hname := h.name
  have hphone := h.phone
  have hstage := h.crmStageId
  simp only [ContactRow.read, h.is24hWindowOpen, h.isOptedOut, h.lastInteraction, h.userId, h.tags, h.createdAt,
    h.customFields, hid, hname, hphone, hstage, bind, Except.bind]
  rfl

theorem kept_of_read (h : r.read = .ok c) : c.id = r.id ∧ c.phone = r.phone :=
  ⟨(holds_of_read h).id.symm, (holds_of_read h).phone.symm⟩

end ContactRow

theorem Stored.parse?_of_uuid {s : String} {id : Uuid} (h : Stored.uuid s = .ok id) : Uuid.parse? s = some id := by
  unfold uuid at h
  split at h
  · rename_i hparse
    cases h
    exact hparse
  · cases h

namespace Database
variable {db db' : Database} {owner : Uuid} {phone : String}

structure ContactIds (db : Database) : Prop where
  different : (db.contacts.map (·.id)).Nodup
  given : ∀ r ∈ db.contacts, r.id ≤ db.lastContactId

def holders (owner : Uuid) (phone : String) (db : Database) : List ContactRow :=
  db.contacts.filter fun r => r.userId == owner.text && r.phone == phone

theorem findContact_eq_holders : db.findContact owner phone = (db.holders owner phone).head?.mapM ContactRow.read := by
  rw [findContact, holders, List.head?_filter]

/-- A contact is made with the next id, when nobody else has its phone. -/
theorem createContact_fresh {now : Instant} {c : NewContact} {contact : Contact}
    (h : db.createContact now c = .ok (contact, db')) :
    contact.id = db.lastContactId + 1 ∧ db.phoneTaken (db.lastContactId + 1) c.userId.text c.phone = false := by
  simp only [createContact] at h
  split at h
  · cases h
  · cases h
    exact ⟨rfl, Bool.eq_false_iff.mpr ‹_›⟩

theorem createContact_taken (now : Instant) {c : NewContact}
    (h : db.phoneTaken (db.lastContactId + 1) c.userId.text c.phone = true) :
    db.createContact now c = .error (phoneConflict c.phone) := by
  simp only [createContact]
  exact if_pos h

/-- The contact is read, and with a patch that has parts its columns are written anew, unless its phone is taken. -/
theorem updateContact_eq_ok {contactId : Int} {p : ContactPatch} (h : db.updateContact contactId p = .ok db') :
    ∃ r old, db.contacts.find? (·.id == contactId) = some r ∧ r.read = .ok old ∧
      (p.isEmpty = true ∧ db' = db ∨ p.isEmpty = false ∧ db.phoneTaken contactId r.userId (p.written old).phone = false ∧
        db' = { db with contacts := (change (·.id == contactId) (·.withColumnsOf (p.written old)) db.contacts).2 }) := by
  unfold updateContact at h
  split at h
  · cases h
  · rename_i r hfind
    obtain ⟨old, hread, h⟩ := bind_eq_ok.mp h
    refine ⟨r, old, hfind, hread, ?_⟩
    dsimp only at h
    split at h
    · cases h
      exact .inl ⟨‹_›, rfl⟩
    · split at h
      · cases h
      · cases h
        exact .inr ⟨Bool.eq_false_iff.mpr ‹_›, Bool.eq_false_iff.mpr ‹_›, rfl⟩

/-- An update writes columns of the contact and of nothing else. -/
theorem updateContact_eq {contactId : Int} {p : ContactPatch} (h : db.updateContact contactId p = .ok db') :
    ∃ g : ContactRow → ContactRow, db' = { db with contacts := (change (·.id == contactId) g db.contacts).2 } ∧
      ∀ r, ∃ c, g r = r ∨ g r = r.withColumnsOf c := by
  obtain ⟨r, old, -, -, ⟨-, rfl⟩ | ⟨-, -, rfl⟩⟩ := updateContact_eq_ok h
  · exact ⟨id, by simp [change], fun r => ⟨old, .inl rfl⟩⟩
  · exact ⟨_, rfl, fun r => ⟨_, .inr rfl⟩⟩

/-- A patch that sets no phone leaves every contact its id, its owner and its phone. -/
theorem updateContact_rows (hids : db.ContactIds) {contactId : Int} {p : ContactPatch} (hphone : p.phone = none)
    (h : db.updateContact contactId p = .ok db') : ∃ g : ContactRow → ContactRow,
      db' = { db with contacts := db.contacts.map g } ∧
      ∀ r ∈ db.contacts, (g r).id = r.id ∧ (g r).userId = r.userId ∧ (g r).phone = r.phone := by
  obtain ⟨r, old, hfind, hread, ⟨-, rfl⟩ | ⟨-, -, rfl⟩⟩ := updateContact_eq_ok h
  · exact ⟨id, by rw [List.map_id], fun _ _ => ⟨rfl, rfl, rfl⟩⟩
  · refine ⟨_, rfl, fun r' hr' => ?_⟩
    split
    · rename_i hid
      have hr := List.mem_of_find?_eq_some hfind
      have hfound : r.id = contactId := by simpa using List.find?_some hfind
      have hsame := List.inj_on_of_nodup_map hids.different hr' hr ((beq_iff_eq.mp hid).trans hfound.symm)
      refine ⟨rfl, rfl, ?_⟩
      simp [ContactRow.withColumnsOf, ContactRow.ofContact, ContactPatch.written, ContactPatch.apply, hphone, hsame,
        (ContactRow.kept_of_read hread).2]
    · exact ⟨rfl, rfl, rfl⟩

end Database

theorem Contact.stripStandard_eq (fields : Keyed Json) :
    stripStandard fields = fields.filter fun e => e.1 ∉ standardFields := by
  apply List.filter_congr
  intro e _
  simp [isStandardField]

namespace Intake
variable {body : Json} {phone : String}

inductive Gives (body : Json) : String → Prop where
  | text {s : String} (member : body.get? "phone" = some (.str s)) (filled : Text.trim s ≠ "") : Gives body (Text.trim s)
  | number {n : Number} (member : body.get? "phone" = some (.num n)) : Gives body n.text

theorem phone?_eq_some : phone? body = some phone ↔ Gives body phone := by
  have hempty (s : String) : (if s.isEmpty then none else some s) = some phone ↔ s ≠ "" ∧ s = phone := by
    by_cases hs : s = ""
    · simp [hs]
    · simp [hs]
  unfold phone?
  constructor
  · intro h
    split at h
    · rename_i s hmember
      obtain ⟨hfilled, rfl⟩ := (hempty _).mp h
      exact .text hmember hfilled
    · rename_i n hmember
      obtain ⟨-, rfl⟩ := (hempty _).mp h
      exact .number hmember
    · exact absurd rfl ((hempty _).mp h).1
  · intro h
    cases h with
    | text member filled =>
      simp only [member]
      exact (hempty _).mpr ⟨filled, rfl⟩
    | @number n member =>
      simp only [member]
      refine (hempty _).mpr ⟨fun hnone => ?_, rfl⟩
      obtain ⟨c, r, hchars, -⟩ := Number.toList_text n
      rw [hnone] at hchars
      cases hchars

/-- A contact as it is made of a body: named, tagged and placed as that says, with what is no column in its fields. -/
structure Newcomer (owner : Uuid) (phone : String) (body : Json) (boards : List Board) (contact : Contact) : Prop where
  user : contact.userId = owner
  number : contact.phone = phone
  named : (∃ given, body.get? "name" = some (.str given) ∧ Text.trim given ≠ "" ∧ contact.name = Text.trim given) ∨
    (∀ given, body.get? "name" = some (.str given) → Text.trim given = "") ∧
      contact.name = "Contato Webhook " ++ String.ofList (phone.toList.drop (phone.toList.length - 4))
  tagged : ∀ items, body.get? "tags" = some (.arr items) → contact.tags = (items.filterMap Json.asString?).eraseDups
  untagged : (∀ items, body.get? "tags" ≠ some (.arr items)) → contact.tags = []
  placed : contact.crmStageId = (boards.head?.bind (·.stages.head?)).map (·.id)
  extended : ∀ members, body = .obj members → contact.customFields = members.filter fun m => m.1 ∉ Contact.standardFields
  fresh : contact.is24hWindowOpen = false ∧ contact.isOptedOut = false ∧ contact.lastInteraction = none

theorem name_spec (body : Json) (phone : String) :
    (∃ given, body.get? "name" = some (.str given) ∧ Text.trim given ≠ "" ∧ name body phone = Text.trim given) ∨
    (∀ given, body.get? "name" = some (.str given) → Text.trim given = "") ∧
      name body phone = "Contato Webhook " ++ String.ofList (phone.toList.drop (phone.toList.length - 4)) := by
  unfold name
  cases hmember : body.get? "name" with
  | none => exact .inr ⟨fun _ h => (by cases h), rfl⟩
  | some j =>
    cases j with
    | str given =>
      by_cases hblank : Text.trim given = ""
      · refine .inr ⟨fun _ h => by cases h; exact hblank, ?_⟩
        simp [Json.asString?, hblank, Contact.phoneSuffix, Text.lastChars]
      · exact .inl ⟨given, rfl, hblank, by simp [Json.asString?, hblank]⟩
    | _ => exact .inr ⟨fun _ h => (by cases h), rfl⟩

theorem tags_of_array {items : List Json} (h : body.get? "tags" = some (.arr items)) :
    tags body = items.filterMap Json.asString? := by
  rw [tags, h]
  rfl

theorem tags_of_none (h : ∀ items, body.get? "tags" ≠ some (.arr items)) : tags body = [] := by
  unfold tags
  cases hmember : body.get? "tags" with
  | none => rfl
  | some j =>
    cases j with
    | arr items => exact absurd hmember (h items)
    | _ => rfl

theorem newcomer_of_created {owner : Uuid} {boards : List Board} {now : Instant} {contact : Contact}
    {db db' : Database} (h : db.createContact now (newContact owner phone body boards) = .ok (contact, db')) :
    Newcomer owner phone body boards contact ∧ contact.id = db.lastContactId + 1 := by
  simp only [Database.createContact] at h
  split at h
  · cases h
  · cases h
    refine ⟨⟨rfl, rfl, name_spec body phone, fun items hitems => ?_, fun hnone => ?_, rfl, ?_, rfl, rfl, rfl⟩, rfl⟩
    · exact (Database.distinct_eq _).trans (congrArg List.eraseDups (tags_of_array hitems))
    · exact congrArg Database.distinct (tags_of_none hnone)
    · intro members hmembers
      subst hmembers
      simp [newContact, customFields, Contact.stripStandard_eq, List.filter_filter]

end Intake
end Outreach
