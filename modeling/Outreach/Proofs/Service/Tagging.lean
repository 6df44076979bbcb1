import Outreach.Proofs.Engine.Exchange
import Outreach.Proofs.Service.Stages
import Outreach.Proofs.Service.Updates

/-! Putting tags into contacts and taking them out. The tags of the contact as it is stored are edited like a set, whatever the
run knows of them. The rest of its row is written anew from what was read of it, and stays the same as long as the custom
fields are read back as they are. -/
namespace Outreach

namespace Action
variable {add : Bool} {tag t : String} {tags : List String}

def edited (add : Bool) (tag : String) (tags : List String) : List String :=
  if add then if tag ∈ tags then tags else tags ++ [tag] else tags.filter (· != tag)

theorem mem_edited : t ∈ edited add tag tags ↔ if t = tag then add = true else t ∈ tags := by
  cases add with
  | true =>
    by_cases ht : t = tag
    · subst ht
      by_cases hmem : t ∈ tags <;> simp [edited, hmem]
    · by_cases hmem : tag ∈ tags <;> simp [edited, hmem, ht]
  | false =>
    by_cases ht : t = tag <;> simp [edited, ht]

theorem edited_nodup (h : tags.Nodup) : (edited add tag tags).Nodup := by
  unfold edited
  split
  · split
    · exact h
    · exact h.append (List.nodup_singleton tag) (List.disjoint_singleton.mpr ‹_›)
  · exact h.filter _

theorem edited_edited : edited add tag (edited add tag tags) = edited add tag tags := by
  cases add with
  | true =>
    have hmem : tag ∈ edited true tag tags := mem_edited.mpr (by rw [if_pos rfl])
    exact if_pos hmem
  | false => simp [edited]

theorem filter_ne_of_not_mem (h : tag ∉ tags) : tags.filter (· != tag) = tags :=
  List.filter_eq_self.mpr fun t ht => by simpa using fun heq : t = tag => h (heq ▸ ht)

/-- A tag that was not there is put in and taken out again. -/
theorem edited_back (h : tag ∉ tags) : edited false tag (edited true tag tags) = tags := by
  simp only [edited, Bool.false_eq_true, if_false, if_true, if_neg h, List.filter_append, filter_ne_of_not_mem h]
  simp

theorem edited_eq_self : edited add tag tags = tags ↔ (tag ∈ tags ↔ add = true) := by
  constructor
  · intro h
    have hmem : tag ∈ edited add tag tags ↔ add = true := by rw [mem_edited, if_pos rfl]
    rwa [h] at hmem
  · intro h
    cases add with
    | true => exact if_pos (h.mpr rfl)
    | false => exact filter_ne_of_not_mem fun hmem => Bool.false_ne_true (h.mp hmem)

theorem changedTags_eq (tags : List String) (tag : String) (add : Bool) :
    changedTags tags tag add = if edited add tag tags = tags then none else some (edited add tag tags) := by
  have hcontains : tags.contains tag = true ↔ tag ∈ tags := List.contains_iff_mem
  simp only [edited_eq_self, changedTags, hcontains]
  cases add with
  | true => by_cases hmem : tag ∈ tags <;> simp [edited, hmem]
  | false => by_cases hmem : tag ∈ tags <;> simp [edited, hmem]

def tagging (add : Bool) (tagName : String) : Action := if add then .addTag tagName else .removeTag tagName

end Action

theorem ContactPatch.written_ofTags {tags : List String} (h : tags.Nodup) (c : Contact) :
    (ofTags tags).written c = { c with tags := tags } := by
  have hdistinct : Database.distinct tags = tags := (Database.distinct_eq tags).trans (eraseDups_of_nodup h)
  simp only [written, ofTags, empty, apply, Option.map_some, hdistinct]
  rfl

namespace ContactRow
variable {r : ContactRow} {c c' : Contact} {tags : List String}

/-- The row with other tags; when these change, the rest of the row is written anew. -/
def retagged (c : Contact) (tags : List String) (r : ContactRow) : ContactRow :=
  if tags = c.tags then r else r.withColumnsOf { c with tags := tags }

theorem retagged_id (c : Contact) (tags : List String) (r : ContactRow) : (r.retagged c tags).id = r.id := by
  unfold retagged
  split <;> rfl

theorem retagged_keys (hread : r.read = .ok c) (tags : List String) :
    (r.retagged c tags).userId = r.userId ∧ (r.retagged c tags).phone = r.phone := by
  unfold retagged
  split
  · exact ⟨rfl, rfl⟩
  · exact ⟨rfl, (kept_of_read hread).2⟩

/-- With other tags nothing but the custom fields may be read otherwise than before. -/
theorem of_read_retagged (hread : r.read = .ok c) (h : (r.retagged c tags).read = .ok c') :
    c' = { c with tags := tags, customFields := c'.customFields } := by
  unfold retagged at h
  split at h
  · rename_i hsame
    cases hread.symm.trans h
    rw [hsame]
  · have hold := holds_of_read hread
    have hnew := holds_of_read h
    obtain ⟨id, userId, name, phone, tags', crmStageId, is24hWindowOpen, isOptedOut, lastInteraction, createdAt, fields⟩ := c'
    cases hold.id.symm.trans hnew.id
    cases hold.userId.symm.trans hnew.userId
    cases hnew.name
    cases hnew.phone
    cases (Stored.document_tags tags).symm.trans hnew.tags
    cases hnew.crmStageId
    cases (AutomationRow.flag_ofBool _ _).symm.trans hnew.is24hWindowOpen
    cases (AutomationRow.flag_ofBool _ _).symm.trans hnew.isOptedOut
    cases hold.lastInteraction.symm.trans hnew.lastInteraction
    cases hold.createdAt.symm.trans hnew.createdAt
    rfl

/-- They are read as before when the tags are the same, or when they are read back. -/
theorem read_retagged_iff (hread : r.read = .ok c) (htags : tags.Nodup) :
    (r.retagged c tags).read = .ok { c with tags := tags } ↔ tags = c.tags ∨ ReadsBack c.customFields := by
  unfold retagged
  split
  · rename_i hsame
    rw [hsame]
    exact iff_of_true hread (.inl rfl)
  · rename_i hother
    rw [or_iff_right hother]
    constructor
    · exact fun h => (holds_of_read h).customFields
    · intro hfields
      have hwritten := ContactPatch.written_ofTags htags c
      have hback : ReadsBack ((ContactPatch.ofTags tags).written c).customFields := by rwa [hwritten]
      exact hwritten ▸ read_written hread hback

end ContactRow

namespace Service
variable {around : Surroundings} {s : Service} {r r' : ContactRow} {c : Contact} {tags : List String} {context : Json}
  {add : Bool} {tagName : String}

structure Stores (s : Service) (r : ContactRow) (c : Contact) : Prop where
  keys : s.db.ContactKeys
  mem : r ∈ s.db.contacts
  read : r.read = .ok c
  tags : c.tags.Nodup

theorem withRow_withRow (hid : r'.id = r.id) (r'' : ContactRow) :
    (s.withRow r.id r').withRow r.id r'' = s.withRow r.id r'' := by
  simp only [withRow, List.map_map]
  congr 3
  funext x
  by_cases hx : x.id = r.id <;> simp [hx, hid]

/-- With another row under the id the service is another one. -/
theorem withRow_eq_self_iff (h : s.db.ContactKeys) (hr : r ∈ s.db.contacts) : s.withRow r.id r' = s ↔ r' = r := by
  constructor
  · intro hsame
    have hrows : (s.db.contacts.map fun x => if x.id = r.id then r' else x) = s.db.contacts.map id :=
      (congrArg (·.db.contacts) hsame).trans (List.map_id _).symm
    simpa using List.map_inj_left.mp hrows r hr
  · rintro rfl
    exact withRow_self h hr

theorem mem_withRow (r' : ContactRow) (hr : r ∈ s.db.contacts) : r' ∈ (s.withRow r.id r').db.contacts :=
  List.mem_map.mpr ⟨r, hr, if_pos rfl⟩

/-- The keys stay when the row has the id, the owner and the phone of the other one. -/
theorem contactKeys_withRow (h : s.db.ContactKeys) (hr : r ∈ s.db.contacts) (hid : r'.id = r.id) (huser : r'.userId = r.userId)
    (hphone : r'.phone = r.phone) : (s.withRow r.id r').db.ContactKeys := by
  have hsame : ∀ x ∈ s.db.contacts, (if x.id = r.id then r' else x).id = x.id ∧
      (if x.id = r.id then r' else x).userId = x.userId ∧ (if x.id = r.id then r' else x).phone = x.phone := by
    intro x hx
    split
    · rename_i hxid
      rw [List.inj_on_of_nodup_map h.ids hx hr hxid]
      exact ⟨hid, huser, hphone⟩
    · exact ⟨rfl, rfl, rfl⟩
  constructor
  · have hids : (s.withRow r.id r').db.contacts.map (·.id) = s.db.contacts.map (·.id) := by
      rw [withRow, List.map_map]
      exact List.map_congr_left fun x hx => (hsame x hx).1
    rw [hids]
    exact h.ids
  · refine List.pairwise_map.mpr (h.phones.imp_of_mem fun {x y} hx hy hdiffers => ?_)
    rwa [(hsame x hx).2.1, (hsame x hx).2.2, (hsame y hy).2.1, (hsame y hy).2.2]

namespace Stores

theorem contact (h : s.Stores r c) : s.db.contact? r.id = .ok (some c) := by
  rw [Database.contact?, h.keys.find h.mem, Option.mapM_some, h.read]
  rfl

theorem keys_retagged (h : s.Stores r c) (tags : List String) : (s.withRow r.id (r.retagged c tags)).db.ContactKeys := by
  obtain ⟨huser, hphone⟩ := ContactRow.retagged_keys h.read tags
  exact contactKeys_withRow h.keys h.mem (ContactRow.retagged_id c tags r) huser hphone

/-- It is so with other tags, if the custom fields are read back. -/
theorem retagged (h : s.Stores r c) (htags : tags.Nodup) (hfields : ReadsBack c.customFields) :
    (s.withRow r.id (r.retagged c tags)).Stores (r.retagged c tags) { c with tags := tags } :=
  ⟨h.keys_retagged tags, mem_withRow _ h.mem, (ContactRow.read_retagged_iff h.read htags).mpr (.inr hfields), htags⟩

/-- What is read of the contact after its row was written with other tags. -/
theorem contact_retagged (h : s.Stores r c) (tags : List String) :
    (s.withRow r.id (r.retagged c tags)).db.contact? r.id = (r.retagged c tags).read.map some := by
  have hfind := (h.keys_retagged tags).find (mem_withRow (r.retagged c tags) h.mem)
  rw [ContactRow.retagged_id] at hfind
  rw [Database.contact?, hfind, Option.mapM_some]
  rfl

theorem answer_ofTags (h : s.Stores r c) (around : Surroundings) (htags : tags.Nodup) (hchanged : tags ≠ c.tags) :
    answer around (.updateContact r.id (.ofTags tags)) s = (.ok (), s.withRow r.id (r.retagged c tags)) := by
  have hfinds := h.keys.finds h.mem h.read
  have hphone : (ContactPatch.ofTags tags).phone.getD c.phone = c.phone := rfl
  rw [answer_update around hfinds, hphone, hfinds.free, if_neg Bool.false_ne_true, patched_eq_withRow h.keys h.mem,
    ContactPatch.written_ofTags htags, ContactRow.retagged, if_neg hchanged]
  rfl

end Stores

/-- The contact is read, and its tags are written when they change. -/
theorem yields_changeTag (add : Bool) (context : Json) (id : Int) (c : Contact) (hname : tagName ≠ "") :
    (Action.changeTag id context tagName add).Yields
      (⟨.getContact id, .ok (some c)⟩ :: if Action.edited add (interpolate tagName context) c.tags = c.tags then []
        else [⟨.updateContact id (.ofTags (Action.edited add (interpolate tagName context) c.tags)), .ok ()⟩]) (.ok ()) := by
  have hfilled : ¬ tagName.isEmpty = true := by simpa using hname
  have hget : (Action.stored (.request (.getContact id))).Yields [⟨.getContact id, .ok (some c)⟩] (.ok (some c)) :=
    ⟨.ok (some c), [], rfl, rfl, rfl⟩
  rw [Action.changeTag, if_neg hfilled]
  by_cases hsame : Action.edited add (interpolate tagName context) c.tags = c.tags
  · rw [if_pos hsame]
    refine Attempt.yields_bind.mpr (.inr ⟨some c, _, [], rfl, hget, ?_⟩)
    simp only [Action.changedTags_eq, if_pos hsame]
    exact ⟨rfl, rfl⟩
  · rw [if_neg hsame]
    refine Attempt.yields_bind.mpr (.inr ⟨some c, _, [_], rfl, hget, ?_⟩)
    simp only [Action.changedTags_eq, if_neg hsame]
    exact ⟨.ok (), [], rfl, rfl, rfl⟩

/-- Performed for the contact of that id, and in that context, the action asks for these things and leads from one state to
the other, whatever the run knows of the contact. -/
def Performs (around : Surroundings) (id : Int) (a : Action) (context : Json) (asked : List Request) (s s' : Service) : Prop :=
  ∀ settings snapshot connection, snapshot.id = id →
    ∃ l, Program.Runs (answer around) (a.perform settings snapshot context connection).run s l (.ok .completed) s' ∧
      l.map (·.request) = asked

def retagging (id : Int) (old new : List String) : List Request :=
  .getContact id :: if new = old then [] else [.updateContact id (.ofTags new)]

theorem Stores.performs (h : s.Stores r c) (around : Surroundings) (hname : tagName ≠ "") (hnew : Action.edited add (interpolate tagName context) c.tags = tags) :
    Performs around r.id (.tagging add tagName) context (retagging r.id c.tags tags) s (s.withRow r.id (r.retagged c tags)) := by
  intro settings snapshot connection hid
  have hperform : (Action.tagging add tagName).perform settings snapshot context connection = (do
      Action.changeTag r.id context tagName add
      return .completed) := by
    rw [← hid]
    cases add <;> rfl
  have hget : answer around (.getContact r.id) s = (.ok (some c), s) := congrArg (·, s) h.contact
  have hyields := yields_changeTag add context r.id c hname
  rw [hnew] at hyields
  rw [hperform]
  refine ⟨_, ⟨Attempt.yields_bind.mpr (.inr ⟨(), _, [], (List.append_nil _).symm, hyields, rfl, rfl⟩),
    Program.answered_cons.mpr ⟨congrArg Prod.fst hget, ?_⟩⟩, ?_⟩
  · rw [hget]
    split
    · rename_i hsame
      rw [ContactRow.retagged, if_pos hsame, withRow_self h.keys h.mem]
      exact .nil s
    · rename_i hchanged
      have hupdate := h.answer_ofTags around (hnew ▸ Action.edited_nodup h.tags) hchanged
      exact Program.answered_cons.mpr ⟨congrArg Prod.fst hupdate, hupdate ▸ .nil _⟩
  · rw [List.map_cons, retagging]
    split <;> rfl

theorem Stores.performs_unchanged (h : s.Stores r c) (around : Surroundings) (hname : tagName ≠ "")
    (hsame : Action.edited add (interpolate tagName context) c.tags = c.tags) :
    Performs around r.id (.tagging add tagName) context [.getContact r.id] s s := by
  have hperforms := h.performs around hname hsame
  rwa [ContactRow.retagged, if_pos rfl, withRow_self h.keys h.mem, retagging, if_pos rfl] at hperforms

/-- One tag action after another, in one context: the tags are edited twice. -/
theorem Stores.performs_twice (h : s.Stores r c) (around : Surroundings) (hfields : ReadsBack c.customFields) {add' : Bool} {tagName' : String}
    {tags' : List String} (hname : tagName ≠ "") (hname' : tagName' ≠ "")
    (hnew : Action.edited add (interpolate tagName context) c.tags = tags)
    (hnew' : Action.edited add' (interpolate tagName' context) tags = tags') :
    ∃ s₁ s₂, Performs around r.id (.tagging add tagName) context (retagging r.id c.tags tags) s s₁ ∧
      Performs around r.id (.tagging add' tagName') context (retagging r.id tags tags') s₁ s₂ ∧
      s₂ = s.withRow r.id ((r.retagged c tags).retagged { c with tags := tags } tags') ∧
      s₂.db.contact? r.id = .ok (some { c with tags := tags' }) := by
  have htags : tags.Nodup := hnew ▸ Action.edited_nodup h.tags
  have hstores := h.retagged htags hfields
  have hsecond := hstores.performs around hname' hnew'
  have hcontact := (hstores.retagged (hnew' ▸ Action.edited_nodup htags) hfields).contact
  simp only [ContactRow.retagged_id] at hsecond hcontact
  exact ⟨_, _, h.performs around hname hnew, hsecond, withRow_withRow (ContactRow.retagged_id c tags r) _, hcontact⟩

def InTurn (around : Surroundings) (id : Int) (a b : Action) (context : Json) (s s' : Service) : Prop :=
  ∃ asked asked' between, Performs around id a context asked s between ∧ Performs around id b context asked' between s'

/-- One action: what becomes of the tags, and of the rest of the contact. -/
theorem Stores.edits (h : s.Stores r c) (around : Surroundings) (hname : tagName ≠ "")
    (hnew : Action.edited add (interpolate tagName context) c.tags = tags) :
    ∃ s', Performs around r.id (.tagging add tagName) context (retagging r.id c.tags tags) s s' ∧
      (∃ r', s' = s.withRow r.id r' ∧ Stored.document "tags" (Decode.list Decode.string) r'.tags = .ok tags) ∧
      (tags = c.tags → s' = s) ∧
      (s'.db.contact? r.id = .ok (some { c with tags := tags }) ↔ tags = c.tags ∨ ReadsBack c.customFields) ∧
      ∀ c', s'.db.contact? r.id = .ok (some c') → c' = { c with tags := tags, customFields := c'.customFields } := by
  have htags : tags.Nodup := hnew ▸ Action.edited_nodup h.tags
  have hcontact := h.contact_retagged tags
  refine ⟨_, h.performs around hname hnew, ⟨_, rfl, ?_⟩, fun hsame => ?_, ?_, fun c' hc' => ?_⟩
  · unfold ContactRow.retagged
    split
    · rename_i hsame
      rw [hsame]
      exact (ContactRow.holds_of_read h.read).tags
    · exact Stored.document_tags tags
  · rw [ContactRow.retagged, if_pos hsame, withRow_self h.keys h.mem]
  · rw [hcontact, map_eq_ok, ← ContactRow.read_retagged_iff h.read htags]
    simp
  · rw [hcontact, map_eq_ok] at hc'
    obtain ⟨c'', hread, hsome⟩ := hc'
    cases hsome
    exact ContactRow.of_read_retagged h.read hread

theorem Stores.performs_again (h : s.Stores r c) (around : Surroundings) (hfields : ReadsBack c.customFields) (hname : tagName ≠ "") :
    ∃ asked s', Performs around r.id (.tagging add tagName) context asked s s' ∧
      Performs around r.id (.tagging add tagName) context [.getContact r.id] s' s' := by
  have hnodup : (Action.edited add (interpolate tagName context) c.tags).Nodup := Action.edited_nodup h.tags
  have hagain := (h.retagged hnodup hfields).performs_unchanged around hname Action.edited_edited
  rw [ContactRow.retagged_id] at hagain
  exact ⟨_, _, h.performs around hname rfl, hagain⟩

/-- A tag that was put in is taken out again; what is left is the row as it is written. -/
theorem Stores.takes_back (h : s.Stores r c) (around : Surroundings) (hfields : ReadsBack c.customFields) (hname : tagName ≠ "")
    (hnone : interpolate tagName context ∉ c.tags) :
    ∃ s', InTurn around r.id (.addTag tagName) (.removeTag tagName) context s s' ∧ (s' = s ↔ r.withColumnsOf c = r) := by
  obtain ⟨s₁, s₂, hfirst, hsecond, hs₂, -⟩ := h.performs_twice around hfields hname hname rfl (Action.edited_back hnone)
  refine ⟨s₂, ⟨_, _, s₁, hfirst, hsecond⟩, ?_⟩
  have hchanged : Action.edited true (interpolate tagName context) c.tags ≠ c.tags := fun hsame =>
    hnone ((Action.edited_eq_self.mp hsame).mpr rfl)
  rw [hs₂, ContactRow.retagged, if_neg hchanged.symm, ContactRow.retagged, if_neg hchanged]
  exact withRow_eq_self_iff h.keys h.mem

/-- Actions on different tags lead to the same set in either order. -/
theorem Stores.either_order (h : s.Stores r c) (around : Surroundings) (hfields : ReadsBack c.customFields) {add' : Bool}
    {tagName' : String} (hname : tagName ≠ "") (hname' : tagName' ≠ "")
    (hother : interpolate tagName context ≠ interpolate tagName' context) : ∃ s₁ s₂ tags₁ tags₂,
      InTurn around r.id (.tagging add tagName) (.tagging add' tagName') context s s₁ ∧
      InTurn around r.id (.tagging add' tagName') (.tagging add tagName) context s s₂ ∧
      s₁.db.contact? r.id = .ok (some { c with tags := tags₁ }) ∧
      s₂.db.contact? r.id = .ok (some { c with tags := tags₂ }) ∧ ∀ t, t ∈ tags₁ ↔ t ∈ tags₂ := by
  have hone : Action.edited add (interpolate tagName context) c.tags = _ := rfl
  have hone' : Action.edited add' (interpolate tagName' context) c.tags = _ := rfl
  have hboth : Action.edited add' (interpolate tagName' context) (Action.edited add (interpolate tagName context) c.tags) = _ := rfl
  have hboth' : Action.edited add (interpolate tagName context) (Action.edited add' (interpolate tagName' context) c.tags) = _ := rfl
  obtain ⟨_, s₁, hfirst, hsecond, -, hcontact⟩ := h.performs_twice around hfields hname hname' hone hboth
  obtain ⟨_, s₂, hfirst', hsecond', -, hcontact'⟩ := h.performs_twice around hfields hname' hname hone' hboth'
  refine ⟨s₁, s₂, _, _, ⟨_, _, _, hfirst, hsecond⟩, ⟨_, _, _, hfirst', hsecond'⟩, hcontact, hcontact', fun t => ?_⟩
  simp only [Action.mem_edited]
  by_cases ht : t = interpolate tagName context
  · rw [if_pos ht, if_pos ht, if_neg (ht ▸ hother)]
  · rw [if_neg ht, if_neg ht]

/-- A tag action edits the tags of the contact as it is stored like a set, whatever the run knows of them, and writes nothing when
they stay the same. The rest of the contact stays as it is exactly when nothing is written or the custom fields are read back
as they are, and nothing but these may change. If they are, doing it again does nothing, a tag that was put in can be taken out
again, and actions on different tags may be performed in either order. -/
theorem tags_like_a_set (h : s.Stores r c) (around : Surroundings) (context : Json) :
    (∀ add tagName tags, tagName ≠ "" → Action.edited add (interpolate tagName context) c.tags = tags →
      ∃ s', Performs around r.id (.tagging add tagName) context (retagging r.id c.tags tags) s s' ∧
        (∃ r', s' = s.withRow r.id r' ∧ Stored.document "tags" (Decode.list Decode.string) r'.tags = .ok tags) ∧
        (tags = c.tags → s' = s) ∧
        (s'.db.contact? r.id = .ok (some { c with tags := tags }) ↔ tags = c.tags ∨ ReadsBack c.customFields) ∧
        ∀ c', s'.db.contact? r.id = .ok (some c') → c' = { c with tags := tags, customFields := c'.customFields }) ∧
    (ReadsBack c.customFields →
      (∀ add tagName, tagName ≠ "" → ∃ asked s', Performs around r.id (.tagging add tagName) context asked s s' ∧
        Performs around r.id (.tagging add tagName) context [.getContact r.id] s' s') ∧
      (∀ tagName, tagName ≠ "" → interpolate tagName context ∉ c.tags →
        ∃ s', InTurn around r.id (.addTag tagName) (.removeTag tagName) context s s' ∧ (s' = s ↔ r.withColumnsOf c = r)) ∧
      ∀ add add' tagName tagName', tagName ≠ "" → tagName' ≠ "" →
        interpolate tagName context ≠ interpolate tagName' context → ∃ s₁ s₂ tags₁ tags₂,
          InTurn around r.id (.tagging add tagName) (.tagging add' tagName') context s s₁ ∧
          InTurn around r.id (.tagging add' tagName') (.tagging add tagName) context s s₂ ∧
          s₁.db.contact? r.id = .ok (some { c with tags := tags₁ }) ∧
          s₂.db.contact? r.id = .ok (some { c with tags := tags₂ }) ∧ ∀ t, t ∈ tags₁ ↔ t ∈ tags₂) := by
  refine ⟨fun add tagName tags hname hnew => h.edits around hname hnew, fun hfields => ⟨fun add tagName hname => ?_,
    fun tagName hname hnone => ?_, fun add add' tagName tagName' hname hname' hother => ?_⟩⟩
  · exact h.performs_again around hfields hname
  · exact h.takes_back around hfields hname hnone
  · exact h.either_order around hfields hname hname' hother

/-- Ana is tagged, and has her row back when the tag is taken out again. -/
theorem neighbour_tagged :
    (∃ s', Performs .offline 1 (.addTag "vip") .null [.getContact 1, .updateContact 1 (.ofTags ["lead", "vip"])] neighbours s' ∧
      s'.db.contact? 1 = .ok (some { neighbour 1 "Ana" "5581999900001" with tags := ["lead", "vip"] })) ∧
    InTurn .offline 1 (.addTag "vip") (.removeTag "vip") .null neighbours neighbours := by
  have hana : neighbours.Stores (.ofContact (neighbour 1 "Ana" "5581999900001")) (neighbour 1 "Ana" "5581999900001") :=
    ⟨contactKeys_neighbours, List.mem_cons_self, (sound_neighbour _ _ _).read, List.nodup_singleton _⟩
  have hfields : ReadsBack (neighbour 1 "Ana" "5581999900001").customFields :=
    readsBack_iff.mpr ⟨Keyed.ascending_nil, List.forall_mem_nil _⟩
  have hvip : interpolate "vip" .null = "vip" := by decide
  obtain ⟨hedits, hlaws⟩ := tags_like_a_set hana .offline .null
  constructor
  · obtain ⟨s', hperforms, -, -, hcontact, -⟩ := hedits true "vip" ["lead", "vip"] (by decide) (by rw [hvip]; decide)
    exact ⟨s', hperforms, hcontact.mpr (.inr hfields)⟩
  · obtain ⟨s', hturns, hback⟩ := (hlaws hfields).2.1 "vip" (by decide) (by rw [hvip]; decide)
    rwa [hback.mpr rfl] at hturns

def scored (tags : List String) (units : Nat) : Contact :=
  ⟨1, .numbered 1, "Ana", "5581999900001", tags, none, false, false, none, ⟨1717408800, 0⟩,
    [("score", .num (.float ⟨false, units, -83⟩))]⟩

def scores (tags : List String) (units : Nat) : Service :=
  .new { Database.empty with contacts := [.ofContact (scored tags units)] } ⟨1717416000, 0⟩ 0

section Scores
variable {units units' : Nat}

/-- The contact is read with the score that its text is read as. -/
theorem stores_scores (h : (Number.float ⟨false, units, -83⟩).reread? = some (.float ⟨false, units', -83⟩))
    (htags : tags.Nodup) : (scores tags units).Stores (.ofContact (scored tags units)) (scored tags units') where
  keys := ⟨List.nodup_singleton _, List.pairwise_singleton _ _⟩
  mem := List.mem_singleton_self _
  read := by
    have hcreated : Instant.IsStored ⟨1717408800, 0⟩ := ⟨⟨by decide, by decide, by decide⟩, by decide, rfl⟩
    have hdoc : Json.docAt Json.depthLimit 0 (.obj [("score", .num (.float ⟨false, units, -83⟩))]) =
        .obj [(some "score", .num (.float ⟨false, units', -83⟩))] := by
      simp [Json.docAt, Json.memberDocs, h, Json.depthLimit]
    refine ContactRow.Holds.read ⟨AutomationRow.flag_ofBool _ _, AutomationRow.flag_ofBool _ _, rfl, rfl, ?_, rfl, rfl,
      Stored.document_tags tags, rfl, hcreated.instant, ?_⟩
    · simp [ContactRow.ofContact, Stored.uuid, Uuid.parse?_text, scored]
    · simp only [ContactRow.ofContact, scored, Stored.document, Decode.ofText, Json.read, Json.readWithin_text, hdoc]
      rfl
  tags := htags

/-- When its tags change, the score that was read is written. -/
theorem performs_scores (add : Bool) (h : (Number.float ⟨false, units, -83⟩).reread? = some (.float ⟨false, units', -83⟩))
    (htags : tags.Nodup) {tags' : List String} (hnew : Action.edited add "vip" tags = tags') (hchanged : tags' ≠ tags) :
    Performs .offline 1 (.tagging add "vip") .null (retagging 1 tags tags') (scores tags units) (scores tags' units') := by
  have hvip : interpolate "vip" .null = "vip" := by decide
  have hedited : Action.edited add (interpolate "vip" .null) tags = tags' := by rw [hvip, hnew]
  have hperforms := (stores_scores h htags).performs .offline (by decide) hedited
  rw [ContactRow.retagged, if_neg (show ¬ tags' = (scored tags units').tags from hchanged)] at hperforms
  exact hperforms

/-- A score moves to the number below with each tag that is put in or taken out: first `7.287852892106195e-10` is read, and in
the end `7.287852892106193e-10`. -/
theorem score_changes :
    (scores ["lead"] 7048378824656263).db.contact? 1 = .ok (some (scored ["lead"] 7048378824656262)) ∧
    Performs .offline 1 (.addTag "vip") .null (retagging 1 ["lead"] ["lead", "vip"])
      (scores ["lead"] 7048378824656263) (scores ["lead", "vip"] 7048378824656262) ∧
    (scores ["lead", "vip"] 7048378824656262).db.contact? 1 = .ok (some (scored ["lead", "vip"] 7048378824656261)) ∧
    InTurn .offline 1 (.addTag "vip") (.removeTag "vip") .null
      (scores ["lead"] 7048378824656263) (scores ["lead"] 7048378824656261) ∧
    (scores ["lead"] 7048378824656261).db.contact? 1 = .ok (some (scored ["lead"] 7048378824656260)) := by
  have hfirst : (Number.float ⟨false, 7048378824656263, -83⟩).reread? = some (.float ⟨false, 7048378824656262, -83⟩) := by decide
  have hsecond : (Number.float ⟨false, 7048378824656262, -83⟩).reread? = some (.float ⟨false, 7048378824656261, -83⟩) := by decide
  have hthird : (Number.float ⟨false, 7048378824656261, -83⟩).reread? = some (.float ⟨false, 7048378824656260, -83⟩) := by decide
  have hin : Action.edited true "vip" ["lead"] = ["lead", "vip"] := by decide
  have hout : Action.edited false "vip" ["lead", "vip"] = ["lead"] := by decide
  have hadd := performs_scores true hfirst (by decide) hin (by decide)
  have hremove := performs_scores false hsecond (by decide) hout (by decide)
  exact ⟨(stores_scores hfirst (by decide)).contact, hadd, (stores_scores hsecond (by decide)).contact,
    ⟨_, _, _, hadd, hremove⟩, (stores_scores hthird (by decide)).contact⟩

end Scores

end Service
end Outreach
