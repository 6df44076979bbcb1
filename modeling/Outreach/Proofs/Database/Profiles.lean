import Outreach.Proofs.Database.Automations
import Outreach.Proofs.Database.Contacts
import Outreach.Proofs.Json.Records
import Outreach.Proofs.Tasks.Queue

/-! Contacts that come back from their rows as they were written. What is stored beside the columns is taken from bodies
that were read, and nests so little that it can be read again; patches keep it so. -/
namespace Outreach
open Json

structure Json.Legible (n : Nat) (j : Json) : Prop where
  canonical : j.Canonical
  depth : j.depth ≤ n
  numbers : ∀ x ∈ j.numbers, x.reread? = some x

namespace Json
variable {n : Nat} {j v : Json}

theorem Legible.mono {m : Nat} (h : j.Legible n) (hm : n ≤ m) : j.Legible m := ⟨h.canonical, h.depth.trans hm, h.numbers⟩

/-- A body that was read, with numbers that are read back. -/
theorem legible_of_parse? {s : String} (h : parse? s = some j) (hnumbers : ∀ x ∈ j.numbers, x.reread? = some x) :
    j.Legible depthLimit where
  canonical := parse?_canonical h
  depth := by
    have hfits := readWithin_fits depthLimit s
    simp only [parse?, parseWithin?] at h
    split at h
    · rename_i d hd
      rw [hd] at hfits
      exact Doc.depth_le_of_fits _ hfits h
    · cases h
  numbers := hnumbers

theorem legible_obj {ms : List (String × Json)} : (obj ms).Legible (n + 1) ↔
    Keyed.Ascending ms ∧ ∀ m ∈ ms, m.2.Legible n := by
  constructor
  · rintro ⟨⟨hasc, hms⟩, hdepth, hnumbers⟩
    refine ⟨hasc, fun m hm => ⟨membersCanonical_iff.mp hms m hm, ?_, fun x hx => ?_⟩⟩
    · exact membersDepth_le_iff.mp (Nat.le_of_succ_le_succ hdepth) m hm
    · exact hnumbers x (mem_membersNumbers.mpr ⟨m, hm, hx⟩)
  · rintro ⟨hasc, hms⟩
    refine ⟨⟨hasc, membersCanonical_iff.mpr fun m hm => (hms m hm).canonical⟩, ?_, fun x hx => ?_⟩
    · exact Nat.succ_le_succ (membersDepth_le_iff.mpr fun m hm => (hms m hm).depth)
    · obtain ⟨m, hm, hx⟩ := mem_membersNumbers.mp hx
      exact (hms m hm).numbers x hx

theorem Legible.item {xs : List Json} (h : (arr xs).Legible (n + 1)) (hv : v ∈ xs) : v.Legible n := by
  obtain ⟨hcanonical, hdepth, hnumbers⟩ := h
  refine ⟨?_, itemsDepth_le_iff.mp (Nat.le_of_succ_le_succ hdepth) v hv, fun x hx => hnumbers x ?_⟩
  · clear hdepth hnumbers
    induction xs with
    | nil => cases hv
    | cons j xs ih =>
      obtain rfl | hv := List.mem_cons.mp hv
      · exact hcanonical.1
      · exact ih hv hcanonical.2
  · clear hcanonical hdepth hnumbers
    induction xs with
    | nil => cases hv
    | cons j xs ih =>
      obtain rfl | hv := List.mem_cons.mp hv
      · exact List.mem_append_left _ hx
      · exact List.mem_append_right _ (ih hv)

theorem Legible.child? (h : j.Legible (n + 1)) {segment : List Char} (hv : j.child? segment = some v) : v.Legible n := by
  cases j with
  | obj ms => exact (legible_obj.mp h).2 _ (Keyed.mem_of_get? hv)
  | arr xs =>
    obtain ⟨i, -, hi⟩ := Option.bind_eq_some_iff.mp hv
    exact h.item (List.mem_of_getElem? hi)
  | _ => cases hv

/-- Every path has a step, so what it leads to lies deeper. -/
theorem Legible.lookup? (h : j.Legible (n + 1)) {path : List Char} (hv : j.lookup? path = some v) : v.Legible n := by
  unfold Json.lookup? at hv
  obtain ⟨first, rest, hsegments⟩ := List.exists_cons_of_ne_nil (Text.splitWhere_ne_nil (· == '.') (Text.trimChars path))
  rw [Text.splitAt, hsegments, List.foldl_cons, Option.bind_some] at hv
  clear hsegments
  cases hfirst : j.child? first with
  | none => rw [hfirst, foldl_bind_none] at hv; cases hv
  | some w =>
    rw [hfirst] at hv
    have hw := h.child? hfirst
    clear hfirst
    induction rest generalizing w with
    | nil =>
      cases hv
      exact hw
    | cons s rest ih =>
      cases hs : w.child? s with
      | none =>
        rw [List.foldl_cons, Option.bind_some, hs, foldl_bind_none] at hv
        cases hv
      | some u =>
        rw [List.foldl_cons, Option.bind_some, hs] at hv
        exact ih u hv ((hw.mono (Nat.le_succ n)).child? hs)

end Json

structure CustomFields (ms : Keyed Json) : Prop where
  ascending : Keyed.Ascending ms
  beside : ∀ m ∈ ms, m.1 ∉ Contact.standardFields
  legible : ∀ m ∈ ms, m.2.Legible (depthLimit - 1)

namespace CustomFields
variable {ms : Keyed Json}

theorem nil : CustomFields [] := ⟨.nil, List.forall_mem_nil _, List.forall_mem_nil _⟩

theorem put (h : CustomFields ms) {k : String} (hk : k ∉ Contact.standardFields) {v : Json}
    (hv : v.Legible (depthLimit - 1)) : CustomFields (Keyed.put k v ms) where
  ascending := Keyed.put_ascending h.ascending
  beside m hm := by
    obtain rfl | hm := Keyed.mem_put hm
    · exact hk
    · exact h.beside m hm
  legible m hm := by
    obtain rfl | hm := Keyed.mem_put hm
    · exact hv
    · exact h.legible m hm

theorem merge {new : Keyed Json} (h : CustomFields ms) (hnew : ∀ m ∈ new, m.1 ∉ Contact.standardFields ∧
    m.2.Legible (depthLimit - 1)) : CustomFields (Keyed.merge ms new) := by
  induction new generalizing ms with
  | nil => exact h
  | cons m new ih =>
    obtain ⟨hm, hnew⟩ := List.forall_mem_cons.mp hnew
    exact ih (h.put hm.1 hm.2) hnew

theorem strip (h : (obj ms).Legible depthLimit) : CustomFields (Contact.stripStandard ms) := by
  obtain ⟨hasc, hms⟩ := legible_obj.mp h
  rw [Contact.stripStandard_eq]
  refine ⟨hasc.sublist (List.filter_sublist.map _), fun m hm => ?_, fun m hm => hms m (List.mem_of_mem_filter hm)⟩
  simpa using (List.mem_filter.mp hm).2

theorem legible_obj (h : CustomFields ms) : (obj ms).Legible depthLimit := Json.legible_obj.mpr ⟨h.ascending, h.legible⟩

theorem document (h : CustomFields ms) :
    Stored.document "custom_fields" (Decode.keyed Decode.json) (obj ms).text = .ok ms := by
  have hkeyed : Decode.keyedFrom Decode.json .text (memberDocs depthLimit 1 ms) = .ok ms := by
    have hms := h.legible
    clear h
    induction ms with
    | nil => rfl
    | cons m ms ih =>
      obtain ⟨hm, hms⟩ := List.forall_mem_cons.mp hms
      have hdepth : 1 + m.2.depth ≤ depthLimit := Nat.add_le_add_left hm.depth 1
      rw [memberDocs, Decode.keyedFrom, Decode.json_docAt hm.canonical hdepth hm.numbers, ih hms]
      rfl
  have hdoc : docAt depthLimit 0 (obj ms) = .obj (memberDocs depthLimit 1 ms) := by rw [docAt, if_neg (by decide)]
  simp only [Stored.document, Decode.ofText, Json.read, readWithin_text, hdoc, Decode.keyed, hkeyed, Except.map,
    Keyed.ofList_of_ascending h.ascending]
  rfl

end CustomFields

/-- Mappings set columns, and beside them what can stand there. -/
theorem HttpRequestSpec.patchFrom_fields {body : Json} (h : body.Legible depthLimit) (mappings : List ResponseMapping) :
    CustomFields (patchFrom mappings body).customFields := by
  have hset {p : ContactPatch} (hp : CustomFields p.customFields) (field : String) {v : Json}
      (hv : v.Legible (depthLimit - 1)) : CustomFields (p.setField field v).customFields := by
    unfold ContactPatch.setField
    split <;> try exact hp
    · split <;> exact hp
    · refine hp.put ?_ hv
      simp only [Contact.standardFields, List.mem_cons, List.not_mem_nil, or_false]
      tauto
  refine List.foldlRecOn mappings _ (motive := fun p : ContactPatch => CustomFields p.customFields) .nil fun p hp m _ => ?_
  split
  · rename_i v hv
    exact hset hp m.contactField (h.lookup? hv)
  · exact hp

theorem Database.distinct_nodup (tags : List String) : (distinct tags).Nodup := by
  have hfold {seen : List String} (hseen : seen.Nodup) :
      (tags.foldl (fun seen t => if seen.contains t then seen else seen ++ [t]) seen).Nodup := by
    induction tags generalizing seen with
    | nil => exact hseen
    | cons t tags ih =>
      rw [List.foldl_cons]
      refine ih ?_
      split
      · exact hseen
      · rename_i hnew
        exact hseen.append (List.nodup_singleton t) (List.disjoint_singleton.mpr (by simpa using hnew))
  exact hfold List.nodup_nil

structure Instant.IsStored (t : Instant) : Prop where
  ordinary : t.Ordinary
  plain : t.IsPlain
  micros : t.toMicros = t

theorem Instant.IsStored.instant {t : Instant} (h : t.IsStored) : Stored.instant t.microsText = .ok t := by
  have hyear : 0 ≤ t.year ∧ t.year ≤ 9999 := h.plain
  rw [Stored.instant, ofText?_microsText h.ordinary, if_pos hyear, h.micros]

theorem Instant.isStored_toMicros {t : Instant} (h : t.Ordinary) (hplain : t.IsPlain) : t.toMicros.IsStored where
  ordinary := ⟨(Nat.div_mul_le_self t.nanos 1000).trans_lt h.nanos, h.min, h.max⟩
  plain := hplain
  micros := by simp [toMicros]

theorem Stored.document_tags (tags : List String) :
    document "tags" (Decode.list Decode.string) (Json.strs tags).text = .ok tags := by
  have htags : Decode.ofText (Decode.list Decode.string) (Json.arr (tags.map .str)).text = .ok tags :=
    Decode.ofText_list fun _ _ => rfl
  simp only [document, Json.strs, htags]

/-- A contact as it may be stored: its tags are different, its fields stand beside the columns, and its times are read
back. -/
structure Contact.Sound (c : Contact) : Prop where
  tags : c.tags.Nodup
  fields : CustomFields c.customFields
  createdAt : c.createdAt.IsStored
  lastInteraction : ∀ t ∈ c.lastInteraction, t.IsStored

namespace Contact.Sound
open Stored
variable {c : Contact}

theorem read (h : c.Sound) : (ContactRow.ofContact c).read = .ok c := by
  refine ContactRow.Holds.read ⟨AutomationRow.flag_ofBool _ _, AutomationRow.flag_ofBool _ _, ?_, rfl, ?_, rfl, rfl, ?_, rfl,
    h.createdAt.instant, h.fields.document⟩
  · have hlast := h.lastInteraction
    change (c.lastInteraction.map Instant.microsText).mapM instant = .ok c.lastInteraction
    cases hc : c.lastInteraction with
    | none => rfl
    | some t =>
      rw [Option.map_some, Option.mapM_some, (hlast t hc).instant]
      rfl
  · simp [ContactRow.ofContact, uuid, Uuid.parse?_text]
  · exact document_tags c.tags

theorem written (h : c.Sound) {p : ContactPatch} (hp : CustomFields p.customFields) : (p.written c).Sound where
  tags := by
    change ((p.tags.map Database.distinct).getD c.tags).Nodup
    cases p.tags with
    | none => exact h.tags
    | some tags => exact Database.distinct_nodup tags
  fields := h.fields.merge fun m hm => ⟨hp.beside m hm, hp.legible m hm⟩
  createdAt := h.createdAt
  lastInteraction := h.lastInteraction

theorem created {db db' : Database} {now : Instant} {new : NewContact} (hnow : now.Ordinary) (hplain : now.IsPlain)
    (hfields : (obj new.customFields).Legible depthLimit) (h : db.createContact now new = .ok (c, db')) : c.Sound := by
  simp only [Database.createContact] at h
  split at h
  · cases h
  · cases h
    exact ⟨Database.distinct_nodup _, .strip hfields, Instant.isStored_toMicros hnow hplain, fun t ht => by cases ht⟩

end Contact.Sound
end Outreach
