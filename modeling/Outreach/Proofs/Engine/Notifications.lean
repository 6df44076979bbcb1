import Outreach.Notification
import Outreach.Proofs.Json.Recasting

/-! Notifications in other words. What the provider adds does not matter, and neither does what it tells where the engine
does not look, as long as it is of the shape that the engine expects there. -/
namespace Outreach
open Decode Fields

namespace Decode.Fields
variable {α β : Type} {o : Origin} {l : Layout} {find find' : String → Option Doc} {name : String} {dec : Decoder α}

def Found (dec : Decoder α) (o : Origin) (absent : Except DecodeError α) (found : Option Doc) (a : α) : Prop :=
  found.elim (absent = .ok a) fun d => dec o d = .ok a

theorem build_ap_iff {fs : Fields α} {ff : Fields (α → β)} {find : Check → Option Doc} {b : β} :
    (Fields.ap ff fs).build o l find = .ok b ↔
      ∃ f a, ff.build o l find = .ok f ∧ fs.build o l find = .ok a ∧ f a = b := by
  refine ⟨build_ap_eq_ok, ?_⟩
  rintro ⟨f, a, hf, ha, rfl⟩
  simp only [Fields.ap, hf, ha]
  rfl

theorem build_map_iff {fs : Fields α} {f : α → β} {find : Check → Option Doc} {b : β} :
    (Fields.map f fs).build o l find = .ok b ↔ ∃ a, fs.build o l find = .ok a ∧ f a = b :=
  map_eq_ok

theorem build_withDefault_iff {given a : α} : (Fields.withDefault name given dec).build o l (fun c => find c.name) = .ok a ↔
    Found dec o (.ok given) (find name) a := by
  simp only [Fields.withDefault, Fields.field, Found]
  cases find name <;> rfl

theorem build_required_iff {a : α} : (Fields.required name dec).build o l (fun c => find c.name) = .ok a ↔
    ∃ d, find name = some d ∧ dec o d = .ok a := by
  simp only [Fields.required, Fields.field]
  cases find name <;> cases l <;> simp

/-- From an altered document a field can be read when that document can. -/
theorem Found.altered {given a : α} {f f' : Option Doc} {A : Doc → Doc → Prop} (g : α → β)
    (h : Found dec o (.ok given) f a) (hrel : Option.Rel A f f')
    (hA : ∀ d d' a, A d d' → dec o d = .ok a → ∃ a', dec o d' = .ok a' ∧ g a = g a') :
    ∃ a', Found dec o (.ok given) f' a' ∧ g a = g a' := by
  cases hrel with
  | none =>
    cases h
    exact ⟨_, rfl, rfl⟩
  | some halters => exact hA _ _ _ halters h

theorem eq_of_rel_eq {f f' : Option Doc} (h : Option.Rel Eq f f') : f' = f := by
  cases h with
  | none => rfl
  | some h => rw [h]

end Decode.Fields

namespace Notification
variable {o : Origin} {l : Layout} {find find' : String → Option Doc} {d d' : Doc}

def ListAltered (A : Doc → Doc → Prop) (d d' : Doc) : Prop :=
  ∃ ds ds', d = .arr ds ∧ d' = .arr ds' ∧ List.Forall₂ A ds ds'

def RecordAltered (names : List String) (altered : String) (A : Doc → Doc → Prop) : Doc → Doc → Prop :=
  Recast (fun name => if name = altered then A else Eq) names

def messageNames : List String := ["id", "from", "type", "text"]

def TextAltered (d d' : Doc) : Prop := d = .null ∧ d' = .null ∨ Recast (fun _ => Eq) ["body"] d d'

section
variable (V M : Doc → Prop)

inductive MessageAltered : Doc → Doc → Prop where
  | extended {d d' : Doc} (recast : RecordAltered messageNames "text" TextAltered d d') : MessageAltered d d'
  | replaced {d : Doc} {ms : List (Option String × Doc)} {kind : String}
      (typed : d.field? messageNames "type" = some (.str kind)) (noText : kind ≠ "text")
      (same : (some "type", .str kind) ∈ ms) (holds : M (.obj ms)) : MessageAltered d (.obj ms)

def ValueAltered : Doc → Doc → Prop := RecordAltered ["messages"] "messages" (ListAltered (MessageAltered M))

inductive ChangeAltered : Doc → Doc → Prop where
  | altered {d d' : Doc} (recast : RecordAltered ["field", "value"] "value" (ValueAltered M) d d') : ChangeAltered d d'
  | replaced {d d' : Doc} (other : d.field? ["field", "value"] "field" ≠ some (.str "messages"))
      (recast : RecordAltered ["field", "value"] "value" (fun _ v => V v) d d') : ChangeAltered d d'

def EntryAltered : Doc → Doc → Prop := RecordAltered ["id", "changes"] "changes" (ListAltered (ChangeAltered V M))

/-- A notification in which any object may have unknown members more, values of changes that are not about messages may be
others for which `V` holds, and messages that are no texts may be others of their type for which `M` holds. -/
def Altered : Doc → Doc → Prop := RecordAltered ["object", "entry"] "entry" (ListAltered (EntryAltered V M))

end

theorem messageFields_iff {m : InboundMessage} : messageFields.build o l (fun c => find c.name) = .ok m ↔
    Found string o (.ok "") (find "id") m.id ∧ (∃ d, find "from" = some d ∧ string o d = .ok m.sender) ∧
      (∃ d, find "type" = some d ∧ string o d = .ok m.kind) ∧
      Found (option (Fields.required "body" string).object) o (.ok none) (find "text") m.text := by
  constructor
  · intro h
    obtain ⟨_, text, h₃, htext, rfl⟩ := build_ap_iff.mp h
    obtain ⟨_, kind, h₂, hkind, rfl⟩ := build_ap_iff.mp h₃
    obtain ⟨_, sender, h₁, hsender, rfl⟩ := build_ap_iff.mp h₂
    obtain ⟨id, hid, rfl⟩ := build_map_iff.mp h₁
    exact ⟨build_withDefault_iff.mp hid, build_required_iff.mp hsender, build_required_iff.mp hkind,
      build_withDefault_iff.mp htext⟩
  · rintro ⟨hid, hsender, hkind, htext⟩
    have h₀ := (build_map_iff (f := InboundMessage.mk) (l := l)).mpr ⟨_, build_withDefault_iff.mpr hid, rfl⟩
    have h₁ := build_ap_iff.mpr ⟨_, _, h₀, build_required_iff.mpr hsender, rfl⟩
    have h₂ := build_ap_iff.mpr ⟨_, _, h₁, build_required_iff.mpr hkind, rfl⟩
    exact build_ap_iff.mpr ⟨_, _, h₂, build_withDefault_iff.mpr htext, rfl⟩

theorem messageFields_plain : messageFields.Plain := .ap (.ap (.ap (.map .field) .field) .field) .field

def textAnd {α β : Type} (f : String → β → α) (first second : String) (given : β) (dec : Decoder β) : Fields α :=
  f <$> Fields.withDefault first "" string <*> Fields.withDefault second given dec

section
variable {α β : Type} {f : String → β → α} {first second : String} {given : β} {dec : Decoder β} {a a' : α}
  {A A' : Doc → Doc → Prop}

theorem textAnd_plain : (textAnd f first second given dec).Plain := .ap (.map .field) .field

theorem textAnd_nodup (hne : first ≠ second) : ((textAnd f first second given dec).checks.map (·.name)).Nodup := by
  change [first, second].Nodup
  simpa using hne

theorem textAnd_iff : (textAnd f first second given dec).build o l (fun c => find c.name) = .ok a ↔
    ∃ s b, Found string o (.ok "") (find first) s ∧ Found dec o (.ok given) (find second) b ∧ f s b = a := by
  constructor
  · intro h
    obtain ⟨_, b, h₁, hb, rfl⟩ := build_ap_iff.mp h
    obtain ⟨s, hs, rfl⟩ := build_map_iff.mp h₁
    exact ⟨s, b, build_withDefault_iff.mp hs, build_withDefault_iff.mp hb, rfl⟩
  · rintro ⟨s, b, hs, hb, rfl⟩
    have h₀ := (build_map_iff (f := f) (l := l)).mpr ⟨s, build_withDefault_iff.mpr hs, rfl⟩
    exact build_ap_iff.mpr ⟨_, _, h₀, build_withDefault_iff.mpr hb, rfl⟩

/-- With its second field altered the record can be read when the field can. -/
theorem textAnd_altered {γ : Type} (g : β → γ) (hne : first ≠ second) (h : RecordAltered [first, second] second A d d')
    (hread : (textAnd f first second given dec).object o d = .ok a)
    (hA : ∀ e e' b, A e e' → dec o e = .ok b → ∃ b', dec o e' = .ok b' ∧ g b = g b') :
    ∃ s b b', f s b = a ∧ (textAnd f first second given dec).object o d' = .ok (f s b') ∧ g b = g b' ∧
      Found string o (.ok "") (d.field? [first, second] first) s := by
  obtain ⟨P, l, hboth⟩ := object_recast (o := o) (textAnd_plain (f := f)) (textAnd_nodup hne) h
  obtain ⟨hP, hbuild⟩ := (hboth a).1.mp hread
  obtain ⟨s, b, hs, hb, rfl⟩ := textAnd_iff.mp hbuild
  have hs : Found string o (.ok "") (d.field? [first, second] first) s := hs
  have hb : Found dec o (.ok given) (d.field? [first, second] second) b := hb
  have hfirst : d'.field? [first, second] first = d.field? [first, second] first := by
    have hrel := Recast.field? h (List.mem_cons_self : first ∈ [first, second])
    rw [if_neg hne] at hrel
    exact eq_of_rel_eq hrel
  have hrel := Recast.field? h (List.mem_cons_of_mem first (List.mem_singleton_self second))
  rw [if_pos rfl] at hrel
  obtain ⟨b', hb', hsame⟩ := hb.altered g hrel hA
  have hs' : Found string o (.ok "") (d'.field? [first, second] first) s := hfirst ▸ hs
  exact ⟨s, b, b', rfl, (hboth _).2.mpr ⟨hP, textAnd_iff.mpr ⟨s, b', hs', hb', rfl⟩⟩, hsame, hs⟩

theorem textAnd_refined (hne : first ≠ second) (h : RecordAltered [first, second] second A d d')
    (hread : (textAnd f first second given dec).object o d = .ok a)
    (hread' : (textAnd f first second given dec).object o d' = .ok a')
    (hA : ∀ e e' b b', A e e' → dec o e = .ok b → dec o e' = .ok b' → A' e e') :
    RecordAltered [first, second] second A' d d' := by
  refine Recast.imp textAnd_plain (textAnd_nodup hne) h hread hread' fun c hc e e' halters hrun hrun' => ?_
  obtain rfl | hc := List.mem_cons.mp hc
  · rw [if_neg hne] at halters ⊢
    exact halters
  · obtain rfl := List.mem_singleton.mp hc
    rw [if_pos rfl] at halters ⊢
    obtain ⟨b, hb, -⟩ := map_eq_ok.mp hrun
    obtain ⟨b', hb', -⟩ := map_eq_ok.mp hrun'
    exact hA e e' b b' halters hb hb'

end

section
variable {α : Type} {dec : Decoder α} {A A' : Doc → Doc → Prop} {as as' : List α}

/-- Altered item by item, a list can be read when its items can. -/
theorem list_altered {γ : Type} (f : α → γ) (h : ListAltered A d d') (hread : list dec o d = .ok as)
    (hA : ∀ e e' a, A e e' → dec o e = .ok a → ∃ a', dec o e' = .ok a' ∧ f a = f a') :
    ∃ as', list dec o d' = .ok as' ∧ as.map f = as'.map f := by
  obtain ⟨ds, ds', rfl, rfl, hall⟩ := h
  simp only [list, listFrom_eq_mapM, mapM_eq_ok] at hread ⊢
  induction hall generalizing as with
  | nil =>
    cases hread
    exact ⟨[], .nil, rfl⟩
  | cons halters hall ih =>
    cases hread with
    | cons hfirst hrest =>
      obtain ⟨a', ha', hsame⟩ := hA _ _ _ halters hfirst
      obtain ⟨as', has', hsames⟩ := ih hrest
      exact ⟨a' :: as', .cons ha' has', by rw [List.map_cons, List.map_cons, hsame, hsames]⟩

theorem list_refined (h : ListAltered A d d') (hread : list dec o d = .ok as) (hread' : list dec o d' = .ok as')
    (hA : ∀ e e' a a', A e e' → dec o e = .ok a → dec o e' = .ok a' → A' e e') : ListAltered A' d d' := by
  obtain ⟨ds, ds', rfl, rfl, hall⟩ := h
  refine ⟨ds, ds', rfl, rfl, ?_⟩
  simp only [list, listFrom_eq_mapM, mapM_eq_ok] at hread hread'
  induction hall generalizing as as' with
  | nil => exact .nil
  | cons halters hall ih =>
    cases hread with
    | cons hfirst hrest =>
      cases hread' with
      | cons hfirst' hrest' => exact .cons (hA _ _ _ _ halters hfirst hfirst') (ih hrest hrest')

end

theorem text_altered {text : Option String} (h : TextAltered d d')
    (hread : option (Fields.required "body" string).object o d = .ok text) :
    option (Fields.required "body" string).object o d' = .ok text := by
  obtain ⟨rfl, rfl⟩ | hrecast := h
  · exact hread
  · have hplain : (Fields.required "body" string).Plain := .field
    obtain ⟨P, l, hboth⟩ := object_recast (o := o) hplain (List.nodup_singleton "body") hrecast
    have hbody : d'.field? ["body"] "body" = d.field? ["body"] "body" :=
      eq_of_rel_eq (Recast.field? hrecast (List.mem_singleton_self "body"))
    have hsame (s : String) (hs : (Fields.required "body" string).object o d = .ok s) :
        (Fields.required "body" string).object o d' = .ok s := by
      obtain ⟨hP, hbuild⟩ := (hboth s).1.mp hs
      obtain ⟨e, he, hstring⟩ := build_required_iff.mp hbuild
      exact (hboth s).2.mpr ⟨hP, build_required_iff.mpr ⟨e, hbody.trans he, hstring⟩⟩
    have hoption : option (Fields.required "body" string).object o d = ((Fields.required "body" string).object o d).map some := by
      cases hrecast <;> rfl
    have hoption' : option (Fields.required "body" string).object o d' =
        ((Fields.required "body" string).object o d').map some := by
      cases hrecast <;> rfl
    rw [hoption] at hread
    obtain ⟨s, hs, rfl⟩ := map_eq_ok.mp hread
    rw [hoption', hsame s hs]
    rfl

theorem message_nodup : (messageFields.checks.map (·.name)).Nodup := by decide

/-- With unknown members added the message is the same. -/
theorem message_extended {m : InboundMessage} (h : RecordAltered messageNames "text" TextAltered d d')
    (hread : messageFields.object o d = .ok m) : messageFields.object o d' = .ok m := by
  obtain ⟨P, l, hboth⟩ := object_recast (o := o) messageFields_plain message_nodup h
  obtain ⟨hP, hbuild⟩ := (hboth m).1.mp hread
  obtain ⟨hid, hsender, hkind, htext⟩ := messageFields_iff.mp hbuild
  have hsame (name : String) (hname : name ∈ messageNames) (hne : name ≠ "text") :
      d'.field? messageNames name = d.field? messageNames name := by
    have hrel := Recast.field? h hname
    rw [if_neg hne] at hrel
    exact eq_of_rel_eq hrel
  have htexts := Recast.field? h (by decide : "text" ∈ messageNames)
  rw [if_pos rfl] at htexts
  obtain ⟨text, htext', rfl⟩ := htext.altered id htexts fun e e' text halters hread => ⟨text, text_altered halters hread, rfl⟩
  refine (hboth m).2.mpr ⟨hP, messageFields_iff.mpr ⟨?_, ?_, ?_, htext'⟩⟩
  · exact hsame "id" (by decide) (by decide) ▸ hid
  · exact hsame "from" (by decide) (by decide) ▸ hsender
  · exact hsame "type" (by decide) (by decide) ▸ hkind

theorem message_kind {m : InboundMessage} {kind : String} (hread : messageFields.object o d = .ok m)
    (htyped : d.field? messageNames "type" = some (.str kind)) : m.kind = kind := by
  obtain ⟨l, hbuild⟩ := exists_build messageFields_plain message_nodup hread
  obtain ⟨-, -, ⟨e, he, hkind⟩, -⟩ := messageFields_iff.mp hbuild
  obtain rfl := Option.some.inj (htyped.symm.trans he)
  exact (Except.ok.inj hkind).symm

theorem inboundText?_eq_none {m : InboundMessage} (h : m.kind ≠ "text") : InboundMessage.inboundText? m = none := if_neg h

section
variable {V M : Doc → Prop}

/-- An altered message that can be read at all says the same. -/
theorem message_altered {m : InboundMessage} (h : MessageAltered M d d') (hread : messageFields.object o d = .ok m)
    (hM : ∀ v, M v → ∃ m', messageFields.object o v = .ok m') : ∃ m', messageFields.object o d' = .ok m' ∧
      InboundMessage.inboundText? m = InboundMessage.inboundText? m' := by
  cases h with
  | extended recast => exact ⟨m, message_extended recast hread, rfl⟩
  | @replaced ms kind typed noText same holds =>
    obtain ⟨m', hread'⟩ := hM _ holds
    have horderly := ((object_members_iff messageFields_plain message_nodup).mp hread').1
    have htyped : Doc.field? messageNames (.obj ms) "type" = some (.str kind) :=
      (horderly.member?_eq_some (by decide : "type" ∈ messageNames)).mpr same
    refine ⟨m', hread', ?_⟩
    rw [inboundText?_eq_none (message_kind hread typed ▸ noText), inboundText?_eq_none (message_kind hread' htyped ▸ noText)]

def valueFields : Fields (List InboundMessage) := .withDefault "messages" [] (list messageFields.object)

def IsMessage (o : Origin) (d : Doc) : Prop := ∃ m, messageFields.object o d = .ok m

def IsValue (o : Origin) (d : Doc) : Prop := ∃ ms, valueFields.object o d = .ok ms

def changeTexts (c : NotificationChange) : List InboundText :=
  if c.field = "messages" then c.messages.filterMap InboundMessage.inboundText? else []

def entryTexts (e : NotificationEntry) : List InboundText := e.changes.flatMap changeTexts

theorem filterMap_congr_map {α β : Type} {f : α → Option β} {as as' : List α} (h : as.map f = as'.map f) :
    as.filterMap f = as'.filterMap f := by
  simpa only [List.filterMap_map, Function.id_comp] using congrArg (List.filterMap id) h

theorem flatMap_congr_map {α β : Type} {f : α → List β} {as as' : List α} (h : as.map f = as'.map f) :
    as.flatMap f = as'.flatMap f := by
  rw [List.flatMap_def, List.flatMap_def, h]

theorem value_altered {ms : List InboundMessage} (h : ValueAltered M d d') (hread : valueFields.object o d = .ok ms)
    (hM : ∀ v, M v → IsMessage o v) : ∃ ms', valueFields.object o d' = .ok ms' ∧
      ms.filterMap InboundMessage.inboundText? = ms'.filterMap InboundMessage.inboundText? := by
  have hplain : valueFields.Plain := .field
  obtain ⟨P, l, hboth⟩ := object_recast (o := o) hplain (List.nodup_singleton "messages") h
  obtain ⟨hP, hbuild⟩ := (hboth ms).1.mp hread
  have hrel := Recast.field? h (List.mem_singleton_self "messages")
  rw [if_pos rfl] at hrel
  obtain ⟨ms', hms', hsame⟩ := (build_withDefault_iff.mp hbuild).altered (List.map InboundMessage.inboundText?) hrel
    fun e e' ms halters hread => list_altered _ halters hread fun e e' m hm hread => message_altered hm hread hM
  exact ⟨ms', (hboth ms').2.mpr ⟨hP, build_withDefault_iff.mpr hms'⟩, filterMap_congr_map hsame⟩

theorem value_refined {ms ms' : List InboundMessage} (h : ValueAltered M d d') (hread : valueFields.object o d = .ok ms)
    (hread' : valueFields.object o d' = .ok ms') : ValueAltered (IsMessage o) d d' := by
  have hplain : valueFields.Plain := .field
  refine Recast.imp hplain (List.nodup_singleton "messages") h hread hread' fun c hc e e' halters hrun hrun' => ?_
  obtain rfl := List.mem_singleton.mp hc
  rw [if_pos rfl] at halters ⊢
  obtain ⟨as, has, -⟩ := map_eq_ok.mp hrun
  obtain ⟨as', has', -⟩ := map_eq_ok.mp hrun'
  refine list_refined halters has has' fun e e' m m' hm hread hread' => ?_
  cases hm with
  | extended recast => exact .extended recast
  | replaced typed noText same holds => exact .replaced typed noText same ⟨m', hread'⟩

/-- An altered change that can be read at all says the same. -/
theorem change_altered {c : NotificationChange} (h : ChangeAltered V M d d') (hread : changeFields.object o d = .ok c)
    (hV : ∀ v, V v → IsValue o v) (hM : ∀ v, M v → IsMessage o v) :
    ∃ c', changeFields.object o d' = .ok c' ∧ changeTexts c = changeTexts c' := by
  cases h with
  | altered recast =>
    obtain ⟨field, ms, ms', rfl, hread', hsame, -⟩ := textAnd_altered (f := NotificationChange.mk)
      (List.filterMap InboundMessage.inboundText?) (by decide) recast hread fun e e' ms halters hread =>
        value_altered halters hread hM
    refine ⟨_, hread', ?_⟩
    rw [changeTexts, changeTexts, hsame]
  | replaced other recast =>
    obtain ⟨field, ms, ms', rfl, hread', -, hfield⟩ := textAnd_altered (f := NotificationChange.mk) (fun _ => ())
      (by decide) recast hread fun e e' ms hv _ => by
        obtain ⟨ms', hms'⟩ := hV e' hv
        exact ⟨ms', hms', rfl⟩
    have hother : field ≠ "messages" := by
      rintro rfl
      generalize d.field? ["field", "value"] "field" = found at other hfield
      cases found with
      | none => exact absurd (Except.ok.inj hfield) (by decide)
      | some e => exact other (congrArg some (string_eq_ok hfield))
    refine ⟨_, hread', ?_⟩
    rw [changeTexts, changeTexts, if_neg hother, if_neg hother]

theorem change_refined {c c' : NotificationChange} (h : ChangeAltered V M d d') (hread : changeFields.object o d = .ok c)
    (hread' : changeFields.object o d' = .ok c') : ChangeAltered (IsValue o) (IsMessage o) d d' := by
  cases h with
  | altered recast =>
    exact .altered (textAnd_refined (f := NotificationChange.mk) (by decide) recast hread hread' fun e e' ms ms' => value_refined)
  | replaced other recast =>
    exact .replaced other (textAnd_refined (f := NotificationChange.mk) (by decide) recast hread hread'
      fun e e' ms ms' _ _ hms' => ⟨ms', hms'⟩)

theorem entry_altered {e : NotificationEntry} (h : EntryAltered V M d d') (hread : entryFields.object o d = .ok e)
    (hV : ∀ v, V v → IsValue o v) (hM : ∀ v, M v → IsMessage o v) :
    ∃ e', entryFields.object o d' = .ok e' ∧ entryTexts e = entryTexts e' := by
  obtain ⟨id, cs, cs', rfl, hread', hsame, -⟩ := textAnd_altered (f := NotificationEntry.mk) (List.map changeTexts)
    (by decide) h hread fun c c' cs halters hread => list_altered changeTexts halters hread fun c c' _ hc hread =>
      change_altered hc hread hV hM
  exact ⟨_, hread', flatMap_congr_map hsame⟩

theorem entry_refined {e e' : NotificationEntry} (h : EntryAltered V M d d') (hread : entryFields.object o d = .ok e)
    (hread' : entryFields.object o d' = .ok e') : EntryAltered (IsValue o) (IsMessage o) d d' :=
  textAnd_refined (f := NotificationEntry.mk) (by decide) h hread hread' fun c c' cs cs' halters hcs hcs' =>
    list_refined halters hcs hcs' fun c c' _ _ hc hread hread' => change_refined hc hread hread'

theorem notification_altered {n : Notification} (h : Altered V M d d') (hread : decode o d = .ok n)
    (hV : ∀ v, V v → IsValue o v) (hM : ∀ v, M v → IsMessage o v) :
    ∃ n', decode o d' = .ok n' ∧ textMessages n' = textMessages n := by
  obtain ⟨object, es, es', rfl, hread', hsame, -⟩ := textAnd_altered (f := Notification.mk) (List.map entryTexts)
    (by decide) h hread fun e e' es halters hread => list_altered entryTexts halters hread fun e e' _ he hread =>
      entry_altered he hread hV hM
  refine ⟨_, hread', ?_⟩
  have htexts : es.flatMap entryTexts = es'.flatMap entryTexts := flatMap_congr_map hsame
  simp only [textMessages]
  split
  · exact htexts.symm
  · rfl

theorem notification_refined {n n' : Notification} (h : Altered V M d d') (hread : decode o d = .ok n)
    (hread' : decode o d' = .ok n') : Altered (IsValue o) (IsMessage o) d d' :=
  textAnd_refined (f := Notification.mk) (by decide) h hread hread' fun e e' es es' halters hes hes' =>
    list_refined halters hes hes' fun e e' _ _ he hread hread' => entry_refined he hread hread'

/-- Members that are not known do not matter. Where a value or a message is replaced the notification can be read exactly
when what is in its place has the shape of a value or a message, and then it tells the same text messages. -/
theorem decode_altered {n : Notification} (hread : decode o d = .ok n) :
    (∀ d', Altered (fun _ => False) (fun _ => False) d d' →
      ∃ n', decode o d' = .ok n' ∧ textMessages n' = textMessages n) ∧
    ∀ d', Altered (fun _ => True) (fun _ => True) d d' →
      ((∃ n', decode o d' = .ok n') ↔ Altered (IsValue o) (IsMessage o) d d') ∧
      ∀ n', decode o d' = .ok n' → textMessages n' = textMessages n := by
  refine ⟨fun d' h => notification_altered h hread (fun _ => False.elim) fun _ => False.elim, fun d' h => ⟨⟨?_, ?_⟩, ?_⟩⟩
  · rintro ⟨n', hread'⟩
    exact notification_refined h hread hread'
  · intro hshaped
    obtain ⟨n', hread', -⟩ := notification_altered hshaped hread (fun _ => id) fun _ => id
    exact ⟨n', hread'⟩
  · intro n' hread'
    obtain ⟨n'', hread'', hsame⟩ := notification_altered (notification_refined h hread hread') hread (fun _ => id) fun _ => id
    exact Except.ok.inj (hread'.symm.trans hread'') ▸ hsame

end

def mixed (image status : Json) : Json :=
  let text := .obj [("id", .str "m1"), ("from", .str "5581"), ("type", .str "text"), ("text", .obj [("body", .str "Oi")])]
  let heard := .obj [("field", .str "messages"), ("value", .obj [("messages", .arr [text, image])])]
  let told := .obj [("field", .str "statuses"), ("value", status)]
  .obj [("object", .str "whatsapp_business_account"), ("entry", .arr [.obj [("changes", .arr [heard, told])]])]

def image (members : List (String × Json)) : Json := .obj (("type", .str "image") :: members)

section
variable {names : List String} {altered k : String} {A : Doc → Doc → Prop} {ms ms' : List (Option String × Doc)} {e e' : Doc}

theorem same_member (hk : k ∈ names) (hne : k ≠ altered)
    (rest : MembersRecast (fun name => if name = altered then A else Eq) names ms ms') :
    MembersRecast (fun name => if name = altered then A else Eq) names ((some k, d) :: ms) ((some k, d) :: ms') :=
  .known hk (by rw [if_neg hne]) rest

theorem altered_member (hk : altered ∈ names) (h : A d d') :
    RecordAltered names altered A (.obj [(some altered, d)]) (.obj [(some altered, d')]) :=
  .members (.known hk (by rwa [if_pos rfl]) .nil)

theorem altered_last (hk : k ∈ names) (hne : k ≠ altered) (haltered : altered ∈ names) (h : A d d') :
    RecordAltered names altered A (.obj [(some k, e), (some altered, d)]) (.obj [(some k, e), (some altered, d')]) :=
  .members (same_member hk hne (.known haltered (by rwa [if_pos rfl]) .nil))

theorem single_altered (h : A d d') : ListAltered A (.arr [d]) (.arr [d']) := ⟨_, _, rfl, rfl, .cons h .nil⟩

theorem pair_altered (h : A d d') (h' : A e e') : ListAltered A (.arr [d, e]) (.arr [d', e']) :=
  ⟨_, _, rfl, rfl, .cons h (.cons h' .nil)⟩

end

theorem mixed_altered {V M : Doc → Prop} {members members' : List (String × Json)} {status status' : Json}
    (hV : V (Doc.ofJson status')) (hM : M (Doc.ofJson (image members'))) :
    Altered V M (Doc.ofJson (mixed (image members) status)) (Doc.ofJson (mixed (image members') status')) := by
  simp only [image, Doc.ofJson, Doc.ofMembers, mixed, Doc.ofItems] at hM ⊢
  have htext (body id sender kind : Doc) : RecordAltered messageNames "text" TextAltered
      (.obj [(some "id", id), (some "from", sender), (some "type", kind), (some "text", .obj [(some "body", body)])])
      (.obj [(some "id", id), (some "from", sender), (some "type", kind), (some "text", .obj [(some "body", body)])]) := by
    have hbody : TextAltered (.obj [(some "body", body)]) (.obj [(some "body", body)]) :=
      .inr (.members (.known (by decide) rfl .nil))
    exact .members (same_member (by decide) (by decide) (same_member (by decide) (by decide) (same_member (by decide)
      (by decide) (.known (by decide) hbody .nil))))
  have himage : MessageAltered M (.obj ((some "type", .str "image") :: Doc.ofMembers members))
      (.obj ((some "type", .str "image") :: Doc.ofMembers members')) :=
    .replaced rfl (by decide) List.mem_cons_self hM
  have hother : Doc.field? ["field", "value"] (.obj [(some "field", .str "statuses"), (some "value", Doc.ofJson status)])
      "field" ≠ some (.str "messages") := by
    simp [Doc.field?, Doc.member?]
  have hmessages := pair_altered (.extended (htext (.str "Oi") (.str "m1") (.str "5581") (.str "text"))) himage
  refine altered_last (by decide) (by decide) (by decide) (single_altered (altered_member (by decide)
    (pair_altered (.altered ?_) (.replaced hother ?_))))
  · exact altered_last (by decide) (by decide) (by decide) (altered_member (by decide) hmessages)
  · exact altered_last (by decide) (by decide) (by decide) hV

def received : Doc := .ofJson (mixed (image [("from", .str "5581")]) (.obj []))

def toldMore : Doc := .ofJson (mixed (image [("from", .str "5582"), ("id", .str "m2")]) (.obj [("messages", .arr [])]))

theorem decode_altered_toldMore : ∃ n n', decode .text received = .ok n ∧ decode .text toldMore = .ok n' ∧
    textMessages n' = textMessages n ∧ textMessages n = [⟨"m1", "5581", "Oi"⟩] := by
  have hreceived : ∃ n, decode .text received = .ok n ∧ textMessages n = [⟨"m1", "5581", "Oi"⟩] := ⟨_, rfl, by decide⟩
  have hshaped : Altered (IsValue .text) (IsMessage .text) received toldMore := mixed_altered ⟨_, rfl⟩ ⟨_, rfl⟩
  obtain ⟨n, hread, htexts⟩ := hreceived
  obtain ⟨hiff, hsame⟩ := (decode_altered hread).2 toldMore (mixed_altered trivial trivial)
  obtain ⟨n', hread'⟩ := hiff.mpr hshaped
  exact ⟨n, n', hread, hread', hsame n' hread', htexts⟩

/-- With an image that does not say from whom it is the text message is lost, and so it is with another change that has
no value. -/
theorem text_lost :
    Altered (fun _ => True) (fun _ => True) received (.ofJson (mixed (image []) (.obj []))) ∧
      Altered (fun _ => True) (fun _ => True) received (.ofJson (mixed (image [("from", .str "5581")]) .null)) ∧
      (decode .text received).map textMessages = .ok [⟨"m1", "5581", "Oi"⟩] ∧
      decode .text (.ofJson (mixed (image []) (.obj []))) = .error (.missing "from") ∧
      decode .text (.ofJson (mixed (image [("from", .str "5581")]) .null)) = .error .invalid :=
  ⟨mixed_altered trivial trivial, mixed_altered trivial trivial, rfl, rfl, rfl⟩

end Notification
end Outreach
