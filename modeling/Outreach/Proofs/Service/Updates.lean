import Outreach.Proofs.Database.Profiles
import Outreach.Proofs.Keyed.Merging
import Outreach.Service.Basic

/-! Updates of contacts. A row is written anew from what was read of it; what the patch does not set stays as it was, and
patches that set different parts can be applied in either order. -/
namespace Outreach
open Keyed

section Fields
variable {fields new : Keyed Json} {ms ns : List (String × Json)} {limit n : Nat}

def ReadsBack (fields : Keyed Json) : Prop :=
  Stored.document "custom_fields" (Decode.keyed Decode.json) (Json.obj fields).text = .ok fields

theorem keys_of_memberDocs (h : Decode.keyedFrom Decode.json .text (Json.memberDocs limit n ms) = .ok ns) :
    ns.map (·.1) = ms.map (·.1) := by
  induction ms generalizing ns with
  | nil =>
    cases h
    rfl
  | cons m ms ih =>
    obtain ⟨v, -, h⟩ := bind_eq_ok.mp h
    obtain ⟨rest, hrest, h⟩ := bind_eq_ok.mp h
    cases h
    exact congrArg (m.1 :: ·) (ih hrest)

theorem keyedFrom_memberDocs_iff : Decode.keyedFrom Decode.json .text (Json.memberDocs limit n ms) = .ok ms ↔
    ∀ m ∈ ms, Decode.json .text (Json.docAt limit n m.2) = .ok m.2 := by
  induction ms with
  | nil => exact iff_of_true rfl (List.forall_mem_nil _)
  | cons m ms ih =>
    obtain ⟨k, v⟩ := m
    rw [List.forall_mem_cons, ← ih, Json.memberDocs, Decode.keyedFrom]
    constructor
    · intro h
      obtain ⟨w, hw, h⟩ := bind_eq_ok.mp h
      obtain ⟨rest, hrest, h⟩ := bind_eq_ok.mp h
      cases h
      exact ⟨hw, hrest⟩
    · rintro ⟨hm, hms⟩
      rw [hm, hms]
      rfl

theorem readsBack_iff : ReadsBack fields ↔ Ascending fields ∧
    ∀ m ∈ fields, Decode.json .text (Json.docAt Json.depthLimit 1 m.2) = .ok m.2 := by
  have hread : Stored.document "custom_fields" (Decode.keyed Decode.json) (Json.obj fields).text = .ok fields ↔
      (Decode.keyedFrom Decode.json .text (Json.memberDocs Json.depthLimit 1 fields)).map ofList = .ok fields := by
    have hdoc : Json.docAt Json.depthLimit 0 (.obj fields) = .obj (Json.memberDocs Json.depthLimit 1 fields) := by
      rw [Json.docAt, if_neg (by decide)]
    simp only [Stored.document, Decode.ofText, Json.read, Json.readWithin_text, hdoc, Decode.keyed]
    cases Decode.keyedFrom Decode.json .text (Json.memberDocs Json.depthLimit 1 fields) with
    | error e => simp [Except.map, bind, Except.bind]
    | ok ns => simp [Except.map, bind, Except.bind, pure, Except.pure]
  rw [ReadsBack, hread, map_eq_ok]
  constructor
  · rintro ⟨ns, hns, hfields⟩
    have hascending : Ascending fields := hfields ▸ ofList_ascending ns
    have hsame : ns = fields := by
      have hkeys := keys_of_memberDocs hns
      rwa [ofList_of_ascending (by rw [Ascending, hkeys]; exact hascending)] at hfields
    exact ⟨hascending, keyedFrom_memberDocs_iff.mp (hsame ▸ hns)⟩
  · rintro ⟨hascending, hvalues⟩
    exact ⟨fields, keyedFrom_memberDocs_iff.mpr hvalues, ofList_of_ascending hascending⟩

theorem ReadsBack.merge (h : ReadsBack fields) (hnew : ReadsBack new) : ReadsBack (merge fields new) := by
  obtain ⟨hascending, hvalues⟩ := readsBack_iff.mp h
  refine readsBack_iff.mpr ⟨merge_ascending hascending new, fun m hm => ?_⟩
  obtain hm | hm := mem_foldl_put hm
  · exact hvalues m hm
  · exact (readsBack_iff.mp hnew).2 m hm

end Fields

namespace ContactPatch
variable {p q : ContactPatch} {c : Contact}

structure Apart (p q : ContactPatch) : Prop where
  name : p.name = none ∨ q.name = none
  phone : p.phone = none ∨ q.phone = none
  tags : p.tags = none ∨ q.tags = none
  crmStageId : p.crmStageId = none ∨ q.crmStageId = none
  isOptedOut : p.isOptedOut = none ∨ q.isOptedOut = none
  is24hWindowOpen : p.is24hWindowOpen = none ∨ q.is24hWindowOpen = none
  customFields : ∀ k, get? p.customFields k = none ∨ get? q.customFields k = none

theorem Apart.symm (h : p.Apart q) : q.Apart p :=
  ⟨h.name.symm, h.phone.symm, h.tags.symm, h.crmStageId.symm, h.isOptedOut.symm, h.is24hWindowOpen.symm,
    fun k => (h.customFields k).symm⟩

theorem getD_getD_comm {α : Type} {x y : Option α} (h : x = none ∨ y = none) (a : α) : x.getD (y.getD a) = y.getD (x.getD a) := by
  obtain rfl | rfl := h <;> rfl

/-- What is written of the contact does not depend on which patch comes first. -/
theorem written_comm (h : p.Apart q) (hc : Ascending c.customFields) (hp : Ascending p.customFields)
    (hq : Ascending q.customFields) : q.written (p.written c) = p.written (q.written c) := by
  have htags : q.tags.map Database.distinct = none ∨ p.tags.map Database.distinct = none :=
    h.tags.symm.imp (fun hnone => by rw [hnone]; rfl) fun hnone => by rw [hnone]; rfl
  have hstage : (q.crmStageId <|> p.crmStageId <|> c.crmStageId) = (p.crmStageId <|> q.crmStageId <|> c.crmStageId) := by
    obtain hnone | hnone := h.crmStageId
    · rw [hnone]
      cases q.crmStageId <;> rfl
    · rw [hnone]
      cases p.crmStageId <;> rfl
  simp only [written, apply, getD_getD_comm h.name.symm, getD_getD_comm h.phone.symm, getD_getD_comm htags, hstage,
    getD_getD_comm h.isOptedOut.symm, getD_getD_comm h.is24hWindowOpen.symm, merge_comm hc hp hq h.customFields]

end ContactPatch

namespace ContactRow
variable {r r' : ContactRow} {c : Contact} {p : ContactPatch}

structure Reencodes (r : ContactRow) : Prop where
  tags : ∀ tags, Stored.document "tags" (Decode.list Decode.string) r.tags = .ok tags → (Json.strs tags).text = r.tags
  customFields : ∀ fields, Stored.document "custom_fields" (Decode.keyed Decode.json) r.customFields = .ok fields →
    (Json.obj fields).text = r.customFields

/-- The row of a contact that may be stored is such a row. -/
theorem reencodes_ofContact (h : c.Sound) : (ofContact c).Reencodes where
  tags tags htags := by
    cases (Stored.document_tags c.tags).symm.trans htags
    rfl
  customFields fields hfields := by
    cases h.fields.document.symm.trans hfields
    rfl

theorem Reencodes.readsBack (h : r.Reencodes) (hread : r.read = .ok c) : ReadsBack c.customFields := by
  have hfields := (holds_of_read hread).customFields
  rwa [ReadsBack, h.customFields _ hfields]

/-- A row that was written anew is read as the contact that was written. -/
theorem read_written (hread : r.read = .ok c) (hfields : ReadsBack (p.written c).customFields) :
    (r.withColumnsOf (p.written c)).read = .ok (p.written c) := by
  have hold := holds_of_read hread
  exact Holds.read ⟨AutomationRow.flag_ofBool _ _, AutomationRow.flag_ofBool _ _, hold.lastInteraction, hold.id, hold.userId,
    rfl, rfl, Stored.document_tags _, rfl, hold.createdAt, hfields⟩

/-- The row after a patch of the contact that it holds. What the patch sets has the value of the patch, tags without
repetition and custom fields key by key; the rest is as it was. -/
structure Patched (r : ContactRow) (c : Contact) (p : ContactPatch) (r' : ContactRow) : Prop where
  id : r'.id = r.id
  userId : r'.userId = r.userId
  name : r'.name = p.name.getD r.name
  phone : r'.phone = p.phone.getD r.phone
  tags : r'.tags = (p.tags.map fun tags => (Json.strs tags.eraseDups).text).getD r.tags
  crmStageId : r'.crmStageId = p.crmStageId.or r.crmStageId
  is24hWindowOpen : Stored.flag "is_24h_window_open" r'.is24hWindowOpen = .ok (p.is24hWindowOpen.getD c.is24hWindowOpen)
  isOptedOut : Stored.flag "is_opted_out_of_automations" r'.isOptedOut = .ok (p.isOptedOut.getD c.isOptedOut)
  lastInteraction : r'.lastInteraction = r.lastInteraction
  customFields : ∃ fields, r'.customFields = (Json.obj fields).text ∧ Ascending fields ∧
    ∀ k, get? fields k = (get? p.customFields k).or (get? c.customFields k)
  createdAt : r'.createdAt = r.createdAt

theorem patched_self (hread : r.read = .ok c) (h : r.Reencodes) (hempty : p.isEmpty = true) : r.Patched c p r := by
  obtain ⟨name, phone, tags, crmStageId, isOptedOut, is24hWindowOpen, customFields⟩ := p
  simp only [ContactPatch.isEmpty, Bool.and_eq_true, Option.isNone_iff_eq_none, List.isEmpty_iff] at hempty
  obtain ⟨⟨⟨⟨⟨⟨rfl, rfl⟩, rfl⟩, rfl⟩, rfl⟩, rfl⟩, rfl⟩ := hempty
  have hold := holds_of_read hread
  exact ⟨rfl, rfl, rfl, rfl, rfl, rfl, hold.is24hWindowOpen, hold.isOptedOut, rfl,
    ⟨c.customFields, (h.customFields _ hold.customFields).symm, (readsBack_iff.mp (h.readsBack hread)).1, fun _ => rfl⟩, rfl⟩

theorem patched_withColumnsOf (hread : r.read = .ok c) (h : r.Reencodes) (hp : Ascending p.customFields) :
    r.Patched c p (r.withColumnsOf (p.written c)) := by
  have hold := holds_of_read hread
  have htags : (Json.strs (p.written c).tags).text = (p.tags.map fun tags => (Json.strs tags.eraseDups).text).getD r.tags := by
    cases htags : p.tags with
    | none =>
      simp only [ContactPatch.written, ContactPatch.apply, htags]
      exact h.tags _ hold.tags
    | some tags =>
      simp only [ContactPatch.written, ContactPatch.apply, htags, Option.map_some, Option.getD_some, Database.distinct_eq]
  have hstage : (p.crmStageId <|> c.crmStageId) = p.crmStageId.or r.crmStageId := by
    rw [hold.crmStageId]
    cases p.crmStageId <;> rfl
  exact ⟨rfl, rfl, congrArg p.name.getD hold.name.symm, congrArg p.phone.getD hold.phone.symm, htags, hstage,
    AutomationRow.flag_ofBool _ _, AutomationRow.flag_ofBool _ _, rfl,
    ⟨merge c.customFields p.customFields, rfl, merge_ascending (readsBack_iff.mp (h.readsBack hread)).1 _, get?_merge hp _⟩,
    rfl⟩

end ContactRow

namespace Database
variable {db : Database} {id : Int} {r : ContactRow} {c : Contact} {p q : ContactPatch} {user phone : String}

structure ContactKeys (db : Database) : Prop where
  ids : (db.contacts.map (·.id)).Nodup
  phones : db.contacts.Pairwise fun r r' => ¬ (r.userId = r'.userId ∧ r.phone = r'.phone)

theorem phoneTaken_iff : db.phoneTaken id user phone = true ↔
    ∃ r ∈ db.contacts, r.id ≠ id ∧ r.userId = user ∧ r.phone = phone := by
  simp only [phoneTaken, List.any_eq_true, Bool.and_eq_true, bne_iff_ne, beq_iff_eq, and_assoc]

theorem ContactKeys.find (h : db.ContactKeys) (hr : r ∈ db.contacts) : db.contacts.find? (·.id == r.id) = some r := by
  cases hfind : db.contacts.find? (·.id == r.id) with
  | none => exact absurd (beq_self_eq_true r.id) (List.find?_eq_none.mp hfind r hr)
  | some x =>
    have hid : x.id = r.id := beq_iff_eq.mp (List.find?_some hfind :)
    rw [List.inj_on_of_nodup_map h.ids (List.mem_of_find?_eq_some hfind) hr hid]

theorem ContactKeys.phone_free (h : db.ContactKeys) (hr : r ∈ db.contacts) : db.phoneTaken r.id r.userId r.phone = false := by
  rw [Bool.eq_false_iff, Ne, phoneTaken_iff]
  rintro ⟨x, hx, hid, hsame⟩
  have hsymm : Std.Symm fun r r' : ContactRow => ¬ (r.userId = r'.userId ∧ r.phone = r'.phone) :=
    ⟨fun a b hab hsame => hab ⟨hsame.1.symm, hsame.2.symm⟩⟩
  exact h.phones.forall hx hr (fun heq => hid (heq ▸ rfl)) hsame

structure Finds (db : Database) (id : Int) (r : ContactRow) (c : Contact) : Prop where
  row : db.contacts.find? (·.id == id) = some r
  read : r.read = .ok c
  free : db.phoneTaken id r.userId c.phone = false

theorem ContactKeys.finds (h : db.ContactKeys) (hr : r ∈ db.contacts) (hread : r.read = .ok c) : db.Finds r.id r c :=
  ⟨h.find hr, hread, (ContactRow.kept_of_read hread).2 ▸ h.phone_free hr⟩

def patched (id : Int) (p : ContactPatch) (c : Contact) (db : Database) : Database :=
  if p.isEmpty then db else { db with contacts := db.contacts.map fun r => if r.id = id then r.withColumnsOf (p.written c) else r }

theorem patched_of_isEmpty (h : p.isEmpty = true) (c : Contact) (db : Database) : db.patched id p c = db := if_pos h

/-- An update goes well unless another contact has the phone. -/
theorem Finds.update (h : db.Finds id r c) (p : ContactPatch) : db.updateContact id p =
    if db.phoneTaken id r.userId (p.phone.getD c.phone) then .error (phoneConflict (p.phone.getD c.phone))
    else .ok (db.patched id p c) := by
  have hwritten : ({ p with tags := p.tags.map distinct }.apply c).phone = p.phone.getD c.phone := rfl
  simp only [updateContact, h.row, h.read, patched, bind, Except.bind]
  cases hempty : p.isEmpty with
  | true =>
    have hphone : p.phone = none := by
      simp only [ContactPatch.isEmpty, Bool.and_eq_true, Option.isNone_iff_eq_none] at hempty
      exact hempty.1.1.1.1.1.2
    rw [hphone, Option.getD_none, h.free]
    rfl
  | false =>
    simp only [Bool.false_eq_true, if_false, hwritten]
    split
    · rfl
    · simp only [change, beq_iff_eq, pure, Except.pure, ContactPatch.written]

/-- Who else has a phone does not change with the contact. -/
theorem phoneTaken_patched : (db.patched id p c).phoneTaken id user phone = db.phoneTaken id user phone := by
  unfold patched
  split
  · rfl
  · rw [phoneTaken, phoneTaken, List.any_map]
    congr 1
    funext x
    by_cases hx : x.id = id
    · simp [hx, ContactRow.withColumnsOf, ContactRow.ofContact]
    · simp [hx]

/-- After a patch the contact is found as it was written. -/
theorem Finds.patched (h : db.Finds id r c) (hfields : ReadsBack (p.written c).customFields)
    (hfree : db.phoneTaken id r.userId (p.phone.getD c.phone) = false) :
    ∃ r', (db.patched id p c).Finds id r' (p.written c) ∧ r'.userId = r.userId := by
  cases hempty : p.isEmpty with
  | true =>
    refine ⟨r, ?_, rfl⟩
    rw [ContactPatch.written_of_isEmpty hempty, patched_of_isEmpty hempty]
    exact h
  | false =>
    refine ⟨r.withColumnsOf (p.written c), ⟨?_, ContactRow.read_written h.read hfields, phoneTaken_patched.trans hfree⟩, rfl⟩
    have hid : r.id = id := beq_iff_eq.mp (List.find?_some h.row :)
    have hsame : ((·.id == id) ∘ fun r : ContactRow => if r.id = id then r.withColumnsOf (p.written c) else r) =
        (·.id == id) := by
      funext x
      rw [Function.comp_apply]
      split <;> rfl
    rw [Database.patched, hempty, if_neg Bool.false_ne_true, List.find?_map, hsame, h.row, Option.map_some, if_pos hid]

theorem patched_comm (hsame : q.written (p.written c) = p.written (q.written c)) :
    (db.patched id p c).patched id q (p.written c) = (db.patched id q c).patched id p (q.written c) := by
  cases hp : p.isEmpty with
  | true => rw [ContactPatch.written_of_isEmpty hp, patched_of_isEmpty hp, patched_of_isEmpty hp]
  | false =>
    cases hq : q.isEmpty with
    | true => rw [ContactPatch.written_of_isEmpty hq, patched_of_isEmpty hq, patched_of_isEmpty hq]
    | false =>
      simp only [patched, hp, hq, Bool.false_eq_true, if_false, List.map_map, hsame]
      congr 2
      funext x
      by_cases hx : x.id = id
      · simp [hx, ContactRow.withColumnsOf]
      · simp [hx]

end Database

namespace Service
variable {around : Surroundings} {s : Service} {id : Int} {r : ContactRow} {c : Contact} {p q : ContactPatch}

def withRow (id : Int) (r : ContactRow) (s : Service) : Service :=
  { s with db := { s.db with contacts := s.db.contacts.map fun x => if x.id = id then r else x } }

theorem withRow_self (h : s.db.ContactKeys) (hr : r ∈ s.db.contacts) : s.withRow r.id r = s := by
  have hrows : (s.db.contacts.map fun x => if x.id = r.id then r else x) = s.db.contacts := by
    refine (List.map_congr_left fun x hx => ?_).trans (List.map_id _)
    split
    · rename_i hid
      exact (List.inj_on_of_nodup_map h.ids hx hr hid).symm
    · rfl
  rw [withRow, hrows]

/-- A patch without parts leaves the row; any other one writes its columns. -/
theorem patched_eq_withRow (h : s.db.ContactKeys) (hr : r ∈ s.db.contacts) : { s with db := s.db.patched r.id p c } =
    s.withRow r.id (if p.isEmpty then r else r.withColumnsOf (p.written c)) := by
  split
  · rw [Database.patched_of_isEmpty ‹_›, withRow_self h hr]
  · have hrows : (s.db.contacts.map fun x => if x.id = r.id then x.withColumnsOf (p.written c) else x) =
        s.db.contacts.map fun x => if x.id = r.id then r.withColumnsOf (p.written c) else x := by
      refine List.map_congr_left fun x hx => ?_
      split
      · rename_i hid
        rw [List.inj_on_of_nodup_map h.ids hx hr hid]
      · rfl
    rw [Database.patched, if_neg ‹_›, withRow, hrows]

theorem answer_update_missing (around : Surroundings) (h : ∀ r ∈ s.db.contacts, r.id ≠ id) (p : ContactPatch) :
    answer around (.updateContact id p) s = (.error .notFound, s) := by
  have hnone : s.db.contacts.find? (·.id == id) = none :=
    List.find?_eq_none.mpr fun r hr => by simpa using h r hr
  simp only [answer, writing, Database.updateContact, hnone]
  rfl

theorem answer_update_damaged (around : Surroundings) (hrow : s.db.contacts.find? (·.id == id) = some r) {e : RepositoryError}
    (hread : r.read = .error e) (p : ContactPatch) : answer around (.updateContact id p) s = (.error e, s) := by
  simp only [answer, writing, Database.updateContact, hrow, hread]
  rfl

theorem answer_update (around : Surroundings) (h : s.db.Finds id r c) (p : ContactPatch) : answer around (.updateContact id p) s =
    if s.db.phoneTaken id r.userId (p.phone.getD c.phone) then (.error (Database.phoneConflict (p.phone.getD c.phone)), s)
    else (.ok (), { s with db := s.db.patched id p c }) := by
  simp only [answer, writing, h.update p]
  split <;> rfl

/-- After a patch that went well, another one that sets other parts fails or goes well as it would have before. -/
theorem answer_update_after (around : Surroundings) (h : s.db.Finds id r c) (hapart : p.Apart q) (hfields : ReadsBack (q.written c).customFields)
    (hfree : s.db.phoneTaken id r.userId (q.phone.getD c.phone) = false) :
    answer around (.updateContact id p) { s with db := s.db.patched id q c } =
      if s.db.phoneTaken id r.userId (p.phone.getD c.phone) then
        (.error (Database.phoneConflict (p.phone.getD c.phone)), { s with db := s.db.patched id q c })
      else (.ok (), { s with db := (s.db.patched id q c).patched id p (q.written c) }) := by
  obtain ⟨r', hfinds, huser⟩ := h.patched hfields hfree
  rw [answer_update around (s := { s with db := s.db.patched id q c }) hfinds, huser, Database.phoneTaken_patched]
  have hphone : (q.written c).phone = q.phone.getD c.phone := rfl
  obtain hnone | hnone := hapart.phone
  · rw [hphone, hnone, Option.getD_none, Option.getD_none, hfree, h.free, if_neg Bool.false_ne_true, if_neg Bool.false_ne_true]
  · rw [hphone, hnone, Option.getD_none]

def updateTwice (around : Surroundings) (id : Int) (p q : ContactPatch) (s : Service) :
    Except RepositoryError Unit × Except RepositoryError Unit × Service :=
  let first := answer around (.updateContact id p) s
  let second := answer around (.updateContact id q) first.2
  (first.1, second.1, second.2)

theorem updateTwice_eq {x y : Except RepositoryError Unit} {t u : Service} (hp : answer around (.updateContact id p) s = (x, t))
    (hq : answer around (.updateContact id q) t = (y, u)) : updateTwice around id p q s = (x, y, u) := by
  simp only [updateTwice, hp, hq]

theorem updateTwice_comm (h : s.db.Finds id r c) (hapart : p.Apart q) (hc : ReadsBack c.customFields)
    (hp : ReadsBack p.customFields) (hq : ReadsBack q.customFields) :
    ∃ x y t, updateTwice around id p q s = (x, y, t) ∧ updateTwice around id q p s = (y, x, t) := by
  have hsame : q.written (p.written c) = p.written (q.written c) :=
    ContactPatch.written_comm hapart (readsBack_iff.mp hc).1 (readsBack_iff.mp hp).1 (readsBack_iff.mp hq).1
  have hfirst := answer_update around h p
  have hsecond := answer_update around h q
  have hafter := answer_update_after around h hapart (hc.merge hq)
  have hafter' := answer_update_after around h hapart.symm (hc.merge hp)
  cases htaken : s.db.phoneTaken id r.userId (p.phone.getD c.phone) with
  | true =>
    rw [htaken, if_pos rfl] at hfirst hafter
    cases htaken' : s.db.phoneTaken id r.userId (q.phone.getD c.phone) with
    | true =>
      rw [htaken', if_pos rfl] at hsecond
      exact ⟨_, _, _, updateTwice_eq hfirst hsecond, updateTwice_eq hsecond hfirst⟩
    | false =>
      rw [htaken', if_neg Bool.false_ne_true] at hsecond
      exact ⟨_, _, _, updateTwice_eq hfirst hsecond, updateTwice_eq hsecond (hafter htaken')⟩
  | false =>
    rw [htaken, if_neg Bool.false_ne_true] at hfirst hafter
    cases htaken' : s.db.phoneTaken id r.userId (q.phone.getD c.phone) with
    | true =>
      rw [htaken', if_pos rfl] at hsecond hafter'
      exact ⟨_, _, _, updateTwice_eq hfirst (hafter' htaken), updateTwice_eq hsecond hfirst⟩
    | false =>
      rw [htaken', if_neg Bool.false_ne_true] at hsecond hafter'
      refine ⟨_, _, _, updateTwice_eq hfirst (hafter' htaken), updateTwice_eq hsecond ((hafter htaken').trans ?_)⟩
      rw [Database.patched_comm hsame]

theorem eq_of_update_error {e : RepositoryError} {s' : Service} (h : answer around (.updateContact id p) s = (.error e, s')) :
    s' = s := by
  simp only [answer, writing, storing] at h
  split at h
  · cases h
  · cases h
    rfl

theorem answer_update_taken (around : Surroundings) (h : s.db.Finds id r c) {phone : String} (hphone : p.phone = some phone)
    (htaken : ∃ x ∈ s.db.contacts, x.id ≠ id ∧ x.userId = r.userId ∧ x.phone = phone) :
    answer around (.updateContact id p) s = (.error (Database.phoneConflict phone), s) := by
  rw [answer_update around h, hphone, Option.getD_some, if_pos (Database.phoneTaken_iff.mpr htaken)]

theorem answer_update_free (around : Surroundings) (hkeys : s.db.ContactKeys) (hr : r ∈ s.db.contacts) (hread : r.read = .ok c)
    (hdocuments : r.Reencodes) (hp : Ascending p.customFields) (hfree : ∀ phone, p.phone = some phone →
      ∀ x ∈ s.db.contacts, x.id ≠ r.id → x.userId = r.userId → x.phone ≠ phone) :
    ∃ r', answer around (.updateContact r.id p) s = (.ok (), s.withRow r.id r') ∧ r.Patched c p r' := by
  have hfinds := hkeys.finds hr hread
  have hnone : s.db.phoneTaken r.id r.userId (p.phone.getD c.phone) = false := by
    cases hphone : p.phone with
    | none => exact hfinds.free
    | some phone =>
      rw [Option.getD_some, Bool.eq_false_iff, Ne, Database.phoneTaken_iff]
      rintro ⟨x, hx, hother, huser, hsame⟩
      exact hfree phone hphone x hx hother huser hsame
  rw [answer_update around hfinds, hnone, if_neg Bool.false_ne_true, patched_eq_withRow hkeys hr]
  refine ⟨_, rfl, ?_⟩
  split
  · exact ContactRow.patched_self hread hdocuments ‹_›
  · exact ContactRow.patched_withColumnsOf hread hdocuments hp

/-- Either order is as good, also when the contact is not there or its row cannot be read. -/
theorem updates_either_order (around : Surroundings) (hkeys : s.db.ContactKeys)
    (hdocuments : ∀ r ∈ s.db.contacts, r.id = id → r.Reencodes) (hapart : p.Apart q) (hp : ReadsBack p.customFields)
    (hq : ReadsBack q.customFields) :
    ∃ x y t, updateTwice around id p q s = (x, y, t) ∧ updateTwice around id q p s = (y, x, t) := by
  by_cases hsome : ∃ r ∈ s.db.contacts, r.id = id
  · obtain ⟨r, hr, rfl⟩ := hsome
    cases hread : r.read with
    | error e =>
      have hfails := answer_update_damaged around (hkeys.find hr) hread
      exact ⟨_, _, _, updateTwice_eq (hfails p) (hfails q), updateTwice_eq (hfails q) (hfails p)⟩
    | ok c => exact updateTwice_comm (hkeys.finds hr hread) hapart ((hdocuments r hr rfl).readsBack hread) hp hq
  · have hnone : ∀ r ∈ s.db.contacts, r.id ≠ id := fun r hr hid => hsome ⟨r, hr, hid⟩
    have hfails := answer_update_missing around hnone
    exact ⟨_, _, _, updateTwice_eq (hfails p) (hfails q), updateTwice_eq (hfails q) (hfails p)⟩

/-- An update fails and leaves everything as it was, or writes the row of the contact and nothing else: what the patch sets is
as it says, and the rest as it was. It fails for a contact that is not there, also without anything to set, for a row that
cannot be read, and for a phone that another contact of the owner has. Patches that set different parts may be applied in either
order. -/
theorem updates_exactly (around : Surroundings) (hkeys : s.db.ContactKeys) (hdocuments : ∀ r ∈ s.db.contacts, r.id = id → r.Reencodes)
    (hp : Ascending p.customFields) :
    (∀ e s', answer around (.updateContact id p) s = (.error e, s') → s' = s) ∧
    ((∀ r ∈ s.db.contacts, r.id ≠ id) → answer around (.updateContact id p) s = (.error .notFound, s)) ∧
    (∀ r ∈ s.db.contacts, r.id = id →
      (∀ e, r.read = .error e → answer around (.updateContact id p) s = (.error e, s)) ∧
      ∀ c, r.read = .ok c →
        (∀ phone, p.phone = some phone → (∃ x ∈ s.db.contacts, x.id ≠ id ∧ x.userId = r.userId ∧ x.phone = phone) →
          answer around (.updateContact id p) s = (.error (Database.phoneConflict phone), s)) ∧
        ((∀ phone, p.phone = some phone → ∀ x ∈ s.db.contacts, x.id ≠ id → x.userId = r.userId → x.phone ≠ phone) →
          ∃ r', answer around (.updateContact id p) s = (.ok (), s.withRow id r') ∧ r.Patched c p r')) ∧
    ∀ q, p.Apart q → ReadsBack p.customFields → ReadsBack q.customFields →
      ∃ x y t, updateTwice around id p q s = (x, y, t) ∧ updateTwice around id q p s = (y, x, t) := by
  refine ⟨fun e s' => eq_of_update_error, fun hnone => answer_update_missing around hnone p, fun r hr hid => ?_,
    fun q hapart => updates_either_order around hkeys hdocuments hapart⟩
  subst hid
  refine ⟨fun e hread => answer_update_damaged around (hkeys.find hr) hread p, fun c hread => ⟨fun phone hphone htaken => ?_,
    fun hfree => ?_⟩⟩
  · exact answer_update_taken around (hkeys.finds hr hread) hphone htaken
  · exact answer_update_free around hkeys hr hread (hdocuments r hr rfl) hp hfree

def neighbour (id : Int) (name phone : String) : Contact :=
  ⟨id, .numbered 1, name, phone, ["lead"], none, false, false, none, ⟨1717408800, 0⟩, []⟩

def neighbours : Service :=
  .new { Database.empty with contacts := [.ofContact (neighbour 1 "Ana" "5581999900001"),
    .ofContact (neighbour 2 "Bia" "5581999900002")] } ⟨1717416000, 0⟩ 0

theorem sound_neighbour (id : Int) (name phone : String) : (neighbour id name phone).Sound := by
  have hcreated : Instant.IsStored ⟨1717408800, 0⟩ := ⟨⟨by decide, by decide, by decide⟩, by decide, rfl⟩
  exact ⟨List.nodup_singleton _, .nil, hcreated, nofun⟩

theorem contactKeys_neighbours : neighbours.db.ContactKeys where
  ids := by decide
  phones := List.pairwise_pair.mpr fun h => absurd h.2 (by decide)

theorem reencodes_neighbours : ∀ r ∈ neighbours.db.contacts, r.Reencodes := by
  rintro r hr
  obtain rfl | hr := List.mem_cons.mp hr
  · exact ContactRow.reencodes_ofContact (sound_neighbour _ _ _)
  · obtain rfl := List.mem_singleton.mp hr
    exact ContactRow.reencodes_ofContact (sound_neighbour _ _ _)

def toLima : ContactPatch := { ContactPatch.empty with name := some "Ana Lima", customFields := [("city", .str "Recife")] }

def toVip : ContactPatch :=
  { ContactPatch.empty with tags := some ["vip", "lead", "vip"], customFields := [("plan", .str "pro")] }

def toPhone (phone : String) : ContactPatch := { ContactPatch.empty with phone := some phone }

theorem apart_toVip : toVip.Apart toLima := by
  refine ⟨.inl rfl, .inl rfl, .inr rfl, .inl rfl, .inl rfl, .inl rfl, fun k => ?_⟩
  by_cases hk : "plan" = k
  · subst hk
    exact .inr (by decide)
  · exact .inl ((get?_cons _ _ _).trans (if_neg hk))

theorem readsBack_text (k text : String) : ReadsBack [(k, .str text)] :=
  readsBack_iff.mpr ⟨List.pairwise_singleton _ _, List.forall_mem_singleton.mpr rfl⟩

/-- Ana gets another name and other tags, in either order; Bia's phone is refused to her, and nobody else is there. -/
theorem updates_neighbours :
    (∃ r', answer .offline (.updateContact 1 toVip) neighbours = (.ok (), neighbours.withRow 1 r') ∧ r'.name = "Ana" ∧
      r'.tags = (Json.strs ["vip", "lead"]).text) ∧
    (∃ x y t, updateTwice .offline 1 toVip toLima neighbours = (x, y, t) ∧
      updateTwice .offline 1 toLima toVip neighbours = (y, x, t)) ∧
    answer .offline (.updateContact 1 (toPhone "5581999900002")) neighbours =
      (.error (Database.phoneConflict "5581999900002"), neighbours) ∧
    answer .offline (.updateContact 3 .empty) neighbours = (.error .notFound, neighbours) := by
  have hdocuments (id : Int) : ∀ r ∈ neighbours.db.contacts, r.id = id → r.Reencodes := fun r hr _ => reencodes_neighbours r hr
  have hana := (sound_neighbour 1 "Ana" "5581999900001").read
  have hmem : ContactRow.ofContact (neighbour 1 "Ana" "5581999900001") ∈ neighbours.db.contacts := List.mem_cons_self
  obtain ⟨-, -, htagged, hturns⟩ := updates_exactly (p := toVip) .offline contactKeys_neighbours (hdocuments 1)
    (List.pairwise_singleton _ _)
  obtain ⟨-, -, hmoved, -⟩ := updates_exactly (p := toPhone "5581999900002") .offline contactKeys_neighbours
    (hdocuments 1) ascending_nil
  obtain ⟨-, hmissing, -⟩ := updates_exactly (p := .empty) .offline contactKeys_neighbours (hdocuments 3) ascending_nil
  refine ⟨?_, hturns toLima apart_toVip (readsBack_text _ _) (readsBack_text _ _), ?_, hmissing fun r hr => ?_⟩
  · obtain ⟨r', hanswer, hpatched⟩ := ((htagged _ hmem rfl).2 _ hana).2 nofun
    exact ⟨r', hanswer, hpatched.name, hpatched.tags⟩
  · exact ((hmoved _ hmem rfl).2 _ hana).1 _ rfl ⟨_, List.mem_cons_of_mem _ (List.mem_singleton_self _), by decide, rfl, rfl⟩
  · obtain rfl | hr := List.mem_cons.mp hr
    · decide
    · obtain rfl := List.mem_singleton.mp hr
      decide

end Service
end Outreach
