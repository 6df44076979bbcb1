import Mathlib
import Outreach.Engine.Conditions
import Outreach.Engine.Run
import Outreach.Proofs.Database.Contacts
import Outreach.Proofs.Engine.Templates
import Outreach.Proofs.Json.Shape
import Outreach.Proofs.Keyed.Merging

/-! The fields of a contact, as conditions and as templates see them. To templates a column wins over a custom field of its
name; to conditions so do the id, the name, the phone and the stage, while custom fields stand in for the other columns. -/
namespace Outreach
open Keyed

namespace Contact
variable {c : Contact}

theorem columns_keys (c : Contact) : c.columns.map (·.1) = standardFields := rfl

theorem columns_canonical (c : Contact) : Json.MembersCanonical c.columns := by
  have htags : Json.ItemsCanonical (c.tags.map Json.str) := by
    induction c.tags with
    | nil => trivial
    | cons t tags ih => exact ⟨trivial, ih⟩
  obtain ⟨id, userId, name, phone, tags, crmStageId, is24hWindowOpen, isOptedOut, lastInteraction, createdAt, customFields⟩ := c
  refine ⟨trivial, trivial, trivial, trivial, htags, ?_, trivial, trivial, ?_, trivial, trivial⟩
  · cases crmStageId <;> trivial
  · cases lastInteraction <;> trivial

theorem get?_stripStandard (fields : Keyed Json) (k : String) :
    get? (stripStandard fields) k = if k ∈ standardFields then none else get? fields k := by
  rw [stripStandard_eq]
  induction fields with
  | nil => split <;> rfl
  | cons e fields ih =>
    rw [List.filter_cons, get?_cons]
    split
    · rename_i he
      rw [get?_cons, ih]
      by_cases hk : e.1 = k
      · subst hk
        rw [if_pos rfl, if_pos rfl, if_neg (by simpa using he)]
      · rw [if_neg hk, if_neg hk]
    · rename_i he
      rw [ih]
      split
      · rfl
      · rename_i hk
        rw [if_neg fun heq : e.1 = k => hk (heq ▸ by simpa using he)]

theorem exists_contextValue (h : (Json.obj c.customFields).Canonical) : ∃ ms, c.contextValue = .obj ms ∧ Ascending ms ∧
    ∀ k, get? ms k = if k ∈ standardFields then get? c.columns k else get? c.customFields k := by
  obtain ⟨hascending, hmembers⟩ := h
  have hcanonical : Json.MembersCanonical (c.columns ++ stripStandard c.customFields) := by
    refine Json.membersCanonical_iff.mpr (List.forall_mem_append.mpr ⟨?_, fun m hm => ?_⟩)
    · exact Json.membersCanonical_iff.mp c.columns_canonical
    · exact Json.membersCanonical_iff.mp hmembers m (List.mem_of_mem_filter hm)
  have hkeys : ((c.columns ++ stripStandard c.customFields).map (·.1)).Nodup := by
    rw [List.map_append, columns_keys]
    have hstripped : ((stripStandard c.customFields).map (·.1)).Nodup :=
      hascending.nodup.sublist (List.filter_sublist.map _)
    have hstandard : standardFields.Nodup := by decide
    refine hstandard.append hstripped fun k hk hcustom => ?_
    obtain ⟨m, hm, rfl⟩ := List.mem_map.mp hcustom
    rw [stripStandard_eq] at hm
    simpa [hk] using (List.mem_filter.mp hm).2
  refine ⟨ofList (c.columns ++ stripStandard c.customFields), ?_, ofList_ascending _, fun k => ?_⟩
  · exact congrArg (Json.obj ∘ ofList) (Json.sortedMembers_of_canonical _ hcanonical)
  · rw [get?_ofList hkeys, get?_append, get?_stripStandard]
    split
    · exact Option.or_none
    · rename_i hk
      rw [get?_eq_none (columns_keys c ▸ hk), Option.none_or]

/-- The columns whose text conditions do not take from the column. -/
def unseenColumns : List String :=
  ["userId", "tags", "is24hWindowOpen", "isOptedOutOfAutomations", "lastInteraction", "createdAt"]

/-- A field is read as templates show it, but for the columns that conditions do not see. -/
theorem rendered_of_fieldText {f s : String} (h : c.fieldText? f = some s) (hf : f ∉ unseenColumns) :
    ((if f ∈ standardFields then get? c.columns f else get? c.customFields f).bind Json.rendered?) = some s.toList := by
  unfold fieldText? at h
  split at h
  · cases h
    rfl
  · cases h
    rfl
  · cases h
    rfl
  · change Json.rendered? (.optStr c.crmStageId) = _
    rw [h]
    rfl
  · rename_i hid hname hphone hstage
    have hcustom : f ∉ standardFields := by
      simp only [unseenColumns, standardFields, List.mem_cons, List.not_mem_nil, or_false] at hf ⊢
      tauto
    obtain ⟨v, hv, hscalar⟩ := Option.bind_eq_some_iff.mp h
    rw [if_neg hcustom, hv, Option.bind_some]
    cases v <;> simp_all [Json.rendered?, Json.scalarText?]

end Contact

structure IsFieldName (f : String) : Prop where
  noDot : '.' ∉ f.toList
  noBrace : '\x7d' ∉ f.toList
  noBlank : ∀ c ∈ f.toList.getLast?, Text.isBlank c = false

def fieldToken (f : String) : String := "\x7b\x7bcontact." ++ f ++ "\x7d\x7d"

def fieldPath (f : String) : List Char := ['c', 'o', 'n', 't', 'a', 'c', 't'] ++ '.' :: f.toList

namespace IsFieldName
variable {f : String} {members fields : List (String × Json)}

theorem isPath (h : IsFieldName f) : Template.IsPath (fieldPath f) := by
  refine ⟨List.cons_ne_nil _ _, fun hbrace => ?_⟩
  obtain hbrace | hbrace := List.mem_append.mp hbrace
  · revert hbrace
    decide
  · obtain hdot | hbrace := List.mem_cons.mp hbrace
    · cases hdot
    · exact h.noBrace hbrace

theorem trim (h : IsFieldName f) : Text.trimChars (fieldPath f) = fieldPath f := by
  refine Text.isTrimmed_iff.mp ⟨[], [], (List.append_nil _).symm, List.forall_mem_nil _, List.forall_mem_nil _, ?_, ?_⟩
  · intro c hc
    cases hc
    decide
  · intro c hc
    rw [fieldPath, List.getLast?_append_cons, List.getLast?_cons, Option.mem_def, Option.some.injEq] at hc
    cases hlast : f.toList.getLast? with
    | none =>
      rw [hlast] at hc
      cases hc
      decide
    | some d =>
      rw [hlast] at hc
      cases hc
      exact h.noBlank _ hlast

theorem split (h : IsFieldName f) : Text.splitAt '.' (fieldPath f) = [['c', 'o', 'n', 't', 'a', 'c', 't'], f.toList] := by
  refine Text.isDotted_iff.mp ⟨List.cons_ne_nil _ _, ?_, ?_⟩
  · simp only [List.forall_mem_cons]
    exact ⟨by decide, h.noDot, List.forall_mem_nil _⟩
  · simp [fieldPath, List.intercalate]

theorem lookup (h : IsFieldName f) (hcontact : get? members "contact" = some (.obj fields)) :
    (Json.obj members).lookup? (fieldPath f) = get? fields f := by
  have hkey : String.ofList ['c', 'o', 'n', 't', 'a', 'c', 't'] = "contact" := by decide
  rw [Json.lookup?, h.trim, h.split, List.foldl_cons, List.foldl_cons, List.foldl_nil, Option.bind_some, Json.child?, hkey,
    hcontact, Option.bind_some, Json.child?, String.ofList_toList]

theorem interpolate (h : IsFieldName f) (context : Json) :
    interpolate (fieldToken f) context = String.ofList (Template.replacement context (fieldPath f)) := by
  have htoken : (fieldToken f).toList = Template.tokenText (fieldPath f) := by
    simp [fieldToken, fieldPath, Template.tokenText]
  have hfill : Template.fillFrom context 0 (Template.tokenText (fieldPath f) ++ []) = _ := Template.fillFrom_token h.isPath []
  rw [List.append_nil] at hfill
  rw [Outreach.interpolate, htoken, hfill, Template.fillFrom, List.append_nil]

end IsFieldName

theorem Event.details_not_contact (e : Event) : ∀ m ∈ e.details, m.1 ≠ "contact" := by
  cases e with
  | crmStageChanged board stage => cases board <;> simp [details]
  | _ => simp [details]

/-- No event brings a member that would hide the contact. -/
theorem Event.get?_contact (e : Event) (contactId : Int) : (e.context contactId).get? "contact" = none := by
  refine get?_eq_none fun hkey => ?_
  obtain ⟨m, hm, hcontact⟩ := List.mem_map.mp hkey
  obtain rfl | hm := List.mem_cons.mp (mem_ofList hm)
  · exact absurd hcontact (show "contactId" ≠ "contact" by decide)
  · exact e.details_not_contact m hm hcontact

theorem get?_contact_suspendedContext (eventContext : Json) (depth : Nat) :
    (suspendedContext eventContext depth).get? "contact" = eventContext.get? "contact" := by
  cases eventContext with
  | obj ms =>
    rw [suspendedContext, Json.get?]
    split
    · rw [get?_put, if_neg (by decide)]
      rfl
    · rw [get?_erase, if_neg (by decide)]
      rfl
  | _ => rfl

theorem get?_runContext {eventContext : Json} (h : eventContext.get? "contact" = none) (c : Contact) :
    (runContext c eventContext).get? "contact" = some c.contextValue := by
  have hevent {new : Keyed Json} (hnew : get? new "contact" = none) :
      get? (merge [("contact", c.contextValue)] new) "contact" = some c.contextValue := by
    rw [get?_merge_of_none hnew, get?_self]
  unfold runContext
  cases eventContext with
  | obj ms => exact hevent (by rw [get?_erase, if_neg (by decide)]; exact h)
  | _ => exact hevent rfl

def shownField (f : String) (v : Option Json) : String :=
  String.ofList ((v.bind Json.rendered?).getD (Template.tokenText (fieldPath f)))

theorem shownField_eq {f s : String} {v : Option Json} (h : v.bind Json.rendered? = some s.toList) : shownField f v = s := by
  rw [shownField, h, Option.getD_some, String.ofList_toList]

theorem interpolate_field {c : Contact} (hcustom : (Json.obj c.customFields).Canonical) {eventContext : Json}
    (hevent : eventContext.get? "contact" = none) {f : String} (hf : IsFieldName f) :
    interpolate (fieldToken f) (runContext c eventContext) =
      shownField f (if f ∈ Contact.standardFields then get? c.columns f else get? c.customFields f) := by
  obtain ⟨members, hmembers, -, hfound⟩ := Contact.exists_contextValue hcustom
  have hcontact := get?_runContext hevent c
  rw [hmembers] at hcontact
  have hlookup : (runContext c eventContext).lookup? (fieldPath f) = get? members f := hf.lookup hcontact
  rw [hf.interpolate, Template.replacement, hlookup, hfound]
  rfl

/-- Templates see the columns, and beside them the custom fields of other names. A field that a condition reads as a text is
shown by its token as the same text, but for a custom field that stands in for a column which conditions do not see: its token
shows the column. -/
theorem fields_agree_iff {c : Contact} (hcustom : (Json.obj c.customFields).Canonical) {eventContext : Json}
    (hevent : eventContext.get? "contact" = none) :
    c.columns.map (·.1) = Contact.standardFields ∧
      (∃ members, c.contextValue = .obj members ∧ Ascending members ∧ ∀ k, get? members k =
        if k ∈ Contact.standardFields then get? c.columns k else get? c.customFields k) ∧
      ∀ f s, IsFieldName f → c.fieldText? f = some s →
        (interpolate (fieldToken f) (runContext c eventContext) = s ↔
          (f ∈ Contact.unseenColumns → shownField f (get? c.columns f) = s)) := by
  refine ⟨c.columns_keys, Contact.exists_contextValue hcustom, fun f s hf htext => ?_⟩
  rw [interpolate_field hcustom hevent hf]
  by_cases hseen : f ∈ Contact.unseenColumns
  · have hstandard : f ∈ Contact.standardFields := by
      have hall : ∀ k ∈ Contact.unseenColumns, k ∈ Contact.standardFields := by decide
      exact hall f hseen
    rw [if_pos hstandard, forall_prop_of_true hseen]
  · exact iff_of_true (shownField_eq (Contact.rendered_of_fieldText htext hseen)) fun h => absurd h hseen

def lookalike (fields : Keyed Json) : Contact :=
  ⟨7, .numbered 1, "Ana", "5581999900007", ["vip"], none, false, false, none, ⟨1717408800, 0⟩, fields⟩

def lookalikeEvent : Json := suspendedContext (Event.contactCreated.context 7) 1

theorem get?_lookalikeEvent : lookalikeEvent.get? "contact" = none :=
  (get?_contact_suspendedContext _ 1).trans (Event.get?_contact .contactCreated 7)

theorem texts_canonical {fields : Keyed Json} (h : Ascending fields) (htexts : ∀ m ∈ fields, ∃ text, m.2 = .str text) :
    (Json.obj fields).Canonical :=
  ⟨h, Json.membersCanonical_iff.mpr fun m hm => by
    obtain ⟨text, htext⟩ := htexts m hm
    rw [htext]
    trivial⟩

def recifense : Contact := lookalike [("city", .str "Recife"), ("id", .str "ext-42")]

def assumed : Contact := lookalike [("userId", .str "ext-42")]

/-- The custom field `id` is hidden by the column, for conditions and for templates; the field `city` is seen by both. -/
theorem lookalike_fields_agree :
    recifense.fieldText? "id" = some "7" ∧ interpolate (fieldToken "id") (runContext recifense lookalikeEvent) = "7" ∧
      recifense.fieldText? "city" = some "Recife" ∧
      interpolate (fieldToken "city") (runContext recifense lookalikeEvent) = "Recife" := by
  have hcustom : (Json.obj recifense.customFields).Canonical := by
    refine texts_canonical ?_ (by simp [recifense, lookalike])
    exact ascending_cons.mpr ⟨by decide, ascending_cons.mpr ⟨by decide, ascending_nil⟩⟩
  have hid : IsFieldName "id" := ⟨by decide, by decide, fun c hc => by cases hc; decide⟩
  have hcity : IsFieldName "city" := ⟨by decide, by decide, fun c hc => by cases hc; decide⟩
  have hseven : recifense.fieldText? "id" = some "7" := by decide
  have hrecife : recifense.fieldText? "city" = some "Recife" := rfl
  obtain ⟨-, -, hagree⟩ := fields_agree_iff hcustom get?_lookalikeEvent
  refine ⟨hseven, (hagree "id" "7" hid hseven).mpr ?_, hrecife, (hagree "city" "Recife" hcity hrecife).mpr ?_⟩
  · exact fun h => absurd h (by decide)
  · exact fun h => absurd h (by decide)

/-- A custom field `userId` is what conditions compare, while its token shows the column. -/
theorem userId_read_apart :
    (∀ now, Condition.check assumed now (.contactField "userId" .is "ext-42") = true) ∧
      assumed.fieldText? "userId" = some "ext-42" ∧
      interpolate (fieldToken "userId") (runContext assumed lookalikeEvent) ≠ "ext-42" := by
  have hcustom : (Json.obj assumed.customFields).Canonical :=
    texts_canonical (List.pairwise_singleton _ _) (by simp [assumed, lookalike])
  have huserId : IsFieldName "userId" := ⟨by decide, by decide, fun c hc => by cases hc; decide⟩
  have htext : assumed.fieldText? "userId" = some "ext-42" := rfl
  refine ⟨fun now => ?_, htext, ?_⟩
  · rw [Condition.check, htext]
    exact beq_self_eq_true _
  · rw [interpolate_field hcustom get?_lookalikeEvent huserId]
    decide

end Outreach
