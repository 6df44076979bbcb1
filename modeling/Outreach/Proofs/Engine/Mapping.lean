import Mathlib
import Outreach.Engine.Dispatch
import Outreach.Proofs.Engine.Program
import Outreach.Proofs.Json.Reading
import Outreach.Proofs.Keyed
import Outreach.Service.Basic

/-! What the reply of another server sets of a contact. A field takes the last value that its mappings find: for tags the
last one that is a list, but for the other columns whatever comes last, so that a value of the wrong shape takes back
what was set before. -/
namespace Outreach
open Keyed

structure ContactPatch.Reflects (p : ContactPatch) (writes : List (String × Json)) : Prop where
  name : p.name = (valuesOf "name" writes).getLast?.bind Json.scalarText?
  phone : p.phone = (valuesOf "phone" writes).getLast?.bind Json.scalarText?
  crmStageId : p.crmStageId = (valuesOf "crmStageId" writes).getLast?.bind Json.scalarText?
  isOptedOut : p.isOptedOut = (valuesOf "isOptedOutOfAutomations" writes).getLast?.bind Json.asBool?
  is24hWindowOpen : p.is24hWindowOpen = (valuesOf "is24hWindowOpen" writes).getLast?.bind Json.asBool?
  tags : p.tags = (((valuesOf "tags" writes).filterMap Json.asArray?).getLast?).map (·.filterMap Json.scalarText?)
  custom : ∀ k, get? p.customFields k = if k ∈ Contact.standardFields then none else (valuesOf k writes).getLast?
  ascending : Ascending p.customFields

namespace ContactPatch
variable {p : ContactPatch} {writes : List (String × Json)}

theorem reflects_nil : empty.Reflects [] := by
  refine ⟨rfl, rfl, rfl, rfl, rfl, rfl, fun k => ?_, ascending_nil⟩
  split <;> rfl

/-- A column is set by its own field, and the custom fields by every other one. -/
theorem setField_eq (p : ContactPatch) (field : String) (v : Json) : p.setField field v =
    { name := if field = "name" then v.scalarText? else p.name
      phone := if field = "phone" then v.scalarText? else p.phone
      tags := if field = "tags" then (v.asArray?.map (·.filterMap Json.scalarText?)).or p.tags else p.tags
      crmStageId := if field = "crmStageId" then v.scalarText? else p.crmStageId
      isOptedOut := if field = "isOptedOutOfAutomations" then v.asBool? else p.isOptedOut
      is24hWindowOpen := if field = "is24hWindowOpen" then v.asBool? else p.is24hWindowOpen
      customFields := if field ∈ Contact.standardFields then p.customFields else put field v p.customFields } := by
  unfold setField
  split
  case h_8 => cases v <;> simp [Contact.standardFields, Json.asArray?]
  case h_11 => simp_all [Contact.standardFields]
  all_goals simp [Contact.standardFields]

theorem getLast?_concat (k : String) (writes : List (String × Json)) (field : String) (v : Json) :
    (valuesOf k (writes ++ [(field, v)])).getLast? = if field = k then some v else (valuesOf k writes).getLast? := by
  rw [valuesOf_concat]
  split
  · exact List.getLast?_concat
  · rw [List.append_nil]

theorem Reflects.setField (h : p.Reflects writes) (field : String) (v : Json) :
    (p.setField field v).Reflects (writes ++ [(field, v)]) := by
  have hcolumn {α : Type} {k : String} {old : Option α} {read : Json → Option α}
      (hold : old = (valuesOf k writes).getLast?.bind read) :
      (if field = k then read v else old) = (valuesOf k (writes ++ [(field, v)])).getLast?.bind read := by
    rw [getLast?_concat]
    split
    · rfl
    · exact hold
  rw [setField_eq]
  refine ⟨hcolumn h.name, hcolumn h.phone, hcolumn h.crmStageId, hcolumn h.isOptedOut, hcolumn h.is24hWindowOpen, ?_,
    fun k => ?_, ?_⟩
  · dsimp only
    rw [valuesOf_concat, List.filterMap_append, h.tags]
    split
    · cases hitems : v.asArray? <;> simp [hitems]
    · rw [List.filterMap_nil, List.append_nil]
  · dsimp only
    rw [getLast?_concat]
    by_cases hfield : field ∈ Contact.standardFields
    · rw [if_pos hfield, h.custom]
      split
      · rfl
      · rename_i hk
        rw [if_neg fun heq : field = k => hk (heq ▸ hfield)]
    · rw [if_neg hfield, get?_put, h.custom]
      split
      · rename_i heq
        rw [if_neg (heq ▸ hfield)]
      · rfl
  · dsimp only
    split
    · exact h.ascending
    · exact put_ascending h.ascending

theorem reflects_foldl (writes : List (String × Json)) :
    (writes.foldl (fun p w => p.setField w.1 w.2) empty).Reflects writes := by
  -- From the end: the last write decides, so what is added there must be the step.
  induction writes using List.reverseRecOn with
  | nil => exact reflects_nil
  | append_singleton writes w ih =>
    rw [List.foldl_concat]
    exact ih.setField w.1 w.2

end ContactPatch

section Lasting
variable {α β : Type} {read : α → Option β} {values : List α}

/-- What comes last can be read, unless nothing can. -/
def EndsReadable (read : α → Option β) (values : List α) : Prop :=
  (∃ v, values.getLast? = some v ∧ (read v).isSome = true) ∨ ∀ v ∈ values, read v = none

theorem getLast?_bind_iff : values.getLast?.bind read = (values.filterMap read).getLast? ↔ EndsReadable read values := by
  cases values using List.reverseRecOn with
  | nil => exact iff_of_true rfl (.inr (List.forall_mem_nil _))
  | append_singleton values v =>
    rw [List.getLast?_concat, Option.bind_some]
    cases hv : read v with
    | some b =>
      refine iff_of_true ?_ (.inl ⟨v, List.getLast?_concat, by rw [hv]; rfl⟩)
      simp [List.filterMap_append, hv]
    | none =>
      rw [eq_comm, List.getLast?_eq_none_iff, List.filterMap_eq_nil_iff]
      refine ⟨.inr, fun h => ?_⟩
      obtain ⟨last, hlast, hread⟩ | h := h
      · cases List.getLast?_concat.symm.trans hlast
        rw [hv] at hread
        cases hread
      · exact h

end Lasting

structure ContactPatch.TakesUsable (p : ContactPatch) (writes : List (String × Json)) : Prop where
  name : p.name = ((valuesOf "name" writes).filterMap Json.scalarText?).getLast?
  phone : p.phone = ((valuesOf "phone" writes).filterMap Json.scalarText?).getLast?
  crmStageId : p.crmStageId = ((valuesOf "crmStageId" writes).filterMap Json.scalarText?).getLast?
  isOptedOut : p.isOptedOut = ((valuesOf "isOptedOutOfAutomations" writes).filterMap Json.asBool?).getLast?
  is24hWindowOpen : p.is24hWindowOpen = ((valuesOf "is24hWindowOpen" writes).filterMap Json.asBool?).getLast?
  tags : p.tags = (((valuesOf "tags" writes).filterMap Json.asArray?).getLast?).map (·.filterMap Json.scalarText?)
  custom : ∀ k, get? p.customFields k = if k ∈ Contact.standardFields then none else (valuesOf k writes).getLast?

/-- So it is exactly when no column is taken back at the end. -/
theorem ContactPatch.Reflects.takesUsable_iff {p : ContactPatch} {writes : List (String × Json)} (h : p.Reflects writes) :
    p.TakesUsable writes ↔
      (∀ k ∈ ["name", "phone", "crmStageId"], EndsReadable Json.scalarText? (valuesOf k writes)) ∧
        ∀ k ∈ ["isOptedOutOfAutomations", "is24hWindowOpen"], EndsReadable Json.asBool? (valuesOf k writes) := by
  simp only [List.forall_mem_cons, List.not_mem_nil, IsEmpty.forall_iff, implies_true, and_true, ← getLast?_bind_iff]
  rw [← h.name, ← h.phone, ← h.crmStageId, ← h.isOptedOut, ← h.is24hWindowOpen]
  exact ⟨fun hu => ⟨⟨hu.name, hu.phone, hu.crmStageId⟩, hu.isOptedOut, hu.is24hWindowOpen⟩,
    fun hu => ⟨hu.1.1, hu.1.2.1, hu.1.2.2, hu.2.1, hu.2.2, h.tags, h.custom⟩⟩

namespace HttpRequestSpec
variable {mappings : List ResponseMapping} {body : Json}

def found (mappings : List ResponseMapping) (body : Json) : List (String × Json) :=
  mappings.filterMap fun m => (body.lookup? m.jsonPath.toList).map fun v => (m.contactField, v)

theorem patchFrom_eq (mappings : List ResponseMapping) (body : Json) :
    patchFrom mappings body = (found mappings body).foldl (fun p w => p.setField w.1 w.2) .empty := by
  rw [patchFrom, found, List.foldl_filterMap]
  congr 1
  funext p m
  cases body.lookup? m.jsonPath.toList <;> rfl

/-- A mapping that finds nothing, or is for a field that cannot be set, or finds no list of tags. -/
def Idle (body : Json) (m : ResponseMapping) : Prop :=
  body.lookup? m.jsonPath.toList = none ∨ m.contactField ∈ ["id", "userId", "createdAt", "lastInteraction"] ∨
    m.contactField = "tags" ∧ ∀ v, body.lookup? m.jsonPath.toList = some v → v.asArray? = none

theorem setField_idle {m : ResponseMapping} (h : Idle body m) (p : ContactPatch) {v : Json}
    (hv : body.lookup? m.jsonPath.toList = some v) : p.setField m.contactField v = p := by
  obtain hnone | hfixed | ⟨htags, hshape⟩ := h
  · cases hnone.symm.trans hv
  · simp only [List.mem_cons, List.not_mem_nil, or_false] at hfixed
    obtain hid | huser | hcreated | hlast := hfixed
    · rw [hid]
      rfl
    · rw [huser]
      rfl
    · rw [hcreated]
      rfl
    · rw [hlast]
      rfl
  · have hlist := hshape v hv
    rw [htags]
    cases v with
    | arr items => cases hlist
    | _ => rfl

theorem patchFrom_idle {m : ResponseMapping} (h : Idle body m) (before after : List ResponseMapping) :
    patchFrom (before ++ m :: after) body = patchFrom (before ++ after) body := by
  rw [patchFrom, patchFrom, List.foldl_append, List.foldl_append, List.foldl_cons]
  congr 1
  split
  · rename_i v hv
    exact setField_idle h _ hv
  · rfl

end HttpRequestSpec

theorem ContactPatch.isEmpty_iff {p : ContactPatch} : p.isEmpty = true ↔ p = .empty := by
  obtain ⟨name, phone, tags, crmStageId, isOptedOut, is24hWindowOpen, customFields⟩ := p
  simp only [isEmpty, empty, Bool.and_eq_true, Option.isNone_iff_eq_none, List.isEmpty_iff, mk.injEq, and_assoc]

namespace Action
variable {σ : Type} {h : Program.Handler σ} {s s₁ : σ} (settings : EngineSettings) (contactId : Int) {spec : HttpRequestSpec}
  {context : Json} {reply : HttpReply} {body : Json}

/-- After a reply the contact is updated when the patch sets something. -/
theorem run_callOut (hurl : spec.url ≠ "")
    (hreply : h (.sendHttp settings.outboundTimeoutMs (spec.call context)) s = (.ok reply, s₁))
    (hsuccess : reply.isSuccess = true) (hbody : reply.json? = some body) :
    (HttpRequestSpec.patchFrom spec.responseMapping body = .empty →
        (callOut settings contactId spec context).run.run h s = some (.ok (), s₁)) ∧
      (HttpRequestSpec.patchFrom spec.responseMapping body ≠ .empty →
        (callOut settings contactId spec context).run.run h s =
          (stored (.request (.updateContact contactId (HttpRequestSpec.patchFrom spec.responseMapping body)))).run.run h s₁) := by
  have hnonempty : spec.url.isEmpty = false := by simpa using hurl
  have hasked : (bounded settings .http (.request (.sendHttp settings.outboundTimeoutMs (spec.call context)))).run.run h s =
      some (.ok reply, s₁) := Attempt.run_of_ok (congrArg some hreply)
  unfold callOut
  rw [if_neg (by rw [hnonempty]; exact Bool.false_ne_true), Attempt.run_bind_of_ok hasked]
  cases hmappings : spec.responseMapping with
  | nil => exact ⟨fun _ => by rw [hsuccess]; rfl, fun h => absurd rfl h⟩
  | cons m mappings =>
    simp only [hsuccess, hbody, List.isEmpty_cons, Bool.not_true, Bool.or_self, Bool.false_eq_true, if_false]
    refine ⟨fun hempty => ?_, fun hsome => ?_⟩
    · rw [if_pos (ContactPatch.isEmpty_iff.mpr hempty)]
      rfl
    · rw [if_neg (mt ContactPatch.isEmpty_iff.mp hsome)]

/-- After a reply with a JSON body each field is what the mappings find last, and the contact is updated when that is
something. It is the last value of the right shape as long as no column has one of the wrong shape after that; a mapping
that finds nothing, or no list of tags, or names a field that cannot be set, is as good as none. -/
theorem maps_reply (hurl : spec.url ≠ "")
    (hreply : h (.sendHttp settings.outboundTimeoutMs (spec.call context)) s = (.ok reply, s₁))
    (hsuccess : reply.isSuccess = true) (hbody : reply.json? = some body) :
    ∃ patch, patch = HttpRequestSpec.patchFrom spec.responseMapping body ∧
      patch.Reflects (HttpRequestSpec.found spec.responseMapping body) ∧
      (patch.TakesUsable (HttpRequestSpec.found spec.responseMapping body) ↔
        (∀ k ∈ ["name", "phone", "crmStageId"],
            EndsReadable Json.scalarText? (valuesOf k (HttpRequestSpec.found spec.responseMapping body))) ∧
          ∀ k ∈ ["isOptedOutOfAutomations", "is24hWindowOpen"],
            EndsReadable Json.asBool? (valuesOf k (HttpRequestSpec.found spec.responseMapping body))) ∧
      (∀ before m after, spec.responseMapping = before ++ m :: after → HttpRequestSpec.Idle body m →
        patch = HttpRequestSpec.patchFrom (before ++ after) body) ∧
      (patch = .empty → (callOut settings contactId spec context).run.run h s = some (.ok (), s₁)) ∧
      (patch ≠ .empty → (callOut settings contactId spec context).run.run h s =
        (stored (.request (.updateContact contactId patch))).run.run h s₁) := by
  have hreflects : (HttpRequestSpec.patchFrom spec.responseMapping body).Reflects
      (HttpRequestSpec.found spec.responseMapping body) := by
    rw [HttpRequestSpec.patchFrom_eq]
    exact ContactPatch.reflects_foldl _
  refine ⟨_, rfl, hreflects, hreflects.takesUsable_iff, fun before m after hmappings hidle => ?_, ?_⟩
  · rw [hmappings]
    exact HttpRequestSpec.patchFrom_idle hidle before after
  · exact run_callOut settings contactId hurl hreply hsuccess hbody

def replying (body : Json) : Surroundings := ⟨.standard, fun _ => .ok ⟨200, body.text⟩, 8⟩

def fetching (mappings : List ResponseMapping) : HttpRequestSpec :=
  { url := "https://example.com/", method := .get, headers := [], body := "", responseMapping := mappings }

def idling : Service := .new .empty ⟨1717408800, 0⟩ 0

def nullAfterName : Json := .obj [("a", .str "Ana"), ("b", .null)]

theorem parse?_nullAfterName : Json.parse? nullAfterName.text = some nullAfterName := by
  have hkeys : ["a", "b"].Pairwise (· < ·) := by decide
  have hcanonical : nullAfterName.Canonical := ⟨hkeys, trivial, trivial, trivial⟩
  rw [Json.parse?_text hcanonical, Json.reading?_eq_self]
  exact ⟨by decide, List.forall_mem_nil _⟩

theorem answer_sendHttp (mappings : List ResponseMapping) (limit : Nat) :
    Service.answer (replying nullAfterName) (.sendHttp limit ((fetching mappings).call .null)) idling =
      (.ok ⟨200, nullAfterName.text⟩, idling) := by
  have hfault : ((fetching []).call .null).fault? = none := by decide +kernel
  rw [show (fetching mappings).call .null = (fetching []).call .null from rfl]
  simp only [Service.answer, HttpCall.send, hfault]
  rfl

/-- The name that is found last is taken. -/
theorem maps_reply_name : (fetching [⟨"b", "name"⟩, ⟨"a", "name"⟩]).url ≠ "" ∧
    (HttpReply.mk 200 nullAfterName.text).isSuccess = true ∧ (HttpReply.mk 200 nullAfterName.text).json? = some nullAfterName ∧
    ∃ patch : ContactPatch, patch.name = some "Ana" ∧
      (callOut (replying nullAfterName).settings 1 (fetching [⟨"b", "name"⟩, ⟨"a", "name"⟩]) .null).run.run
          (Service.answer (replying nullAfterName)) idling =
        (stored (.request (.updateContact 1 patch))).run.run (Service.answer (replying nullAfterName)) idling := by
  have hurl : (fetching [⟨"b", "name"⟩, ⟨"a", "name"⟩]).url ≠ "" := by decide
  obtain ⟨patch, rfl, -, -, -, -, hupdate⟩ := maps_reply (replying nullAfterName).settings 1 hurl
    (answer_sendHttp [⟨"b", "name"⟩, ⟨"a", "name"⟩] _) rfl parse?_nullAfterName
  have hname : (HttpRequestSpec.patchFrom (fetching [⟨"b", "name"⟩, ⟨"a", "name"⟩]).responseMapping nullAfterName).name =
      some "Ana" := by decide +kernel
  refine ⟨hurl, rfl, parse?_nullAfterName, _, hname, hupdate fun hempty => ?_⟩
  rw [hempty] at hname
  cases hname

/-- The other way round the name is taken back, and the contact is left alone. -/
theorem name_taken_back : ((valuesOf "name" (HttpRequestSpec.found [⟨"a", "name"⟩, ⟨"b", "name"⟩] nullAfterName)).filterMap
      Json.scalarText?).getLast? = some "Ana" ∧
    (HttpRequestSpec.patchFrom [⟨"a", "name"⟩, ⟨"b", "name"⟩] nullAfterName).name = none ∧
    (callOut (replying nullAfterName).settings 1 (fetching [⟨"a", "name"⟩, ⟨"b", "name"⟩]) .null).run.run
      (Service.answer (replying nullAfterName)) idling = some (.ok (), idling) := by
  refine ⟨by decide +kernel, by decide +kernel, ?_⟩
  exact (run_callOut _ 1 (by decide) (answer_sendHttp _ _) rfl parse?_nullAfterName).1 rfl

end Action
end Outreach
