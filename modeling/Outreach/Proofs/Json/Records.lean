import Outreach.Proofs.Attempts
import Outreach.Proofs.Json.Nesting

/-! Records read from documents. The order of the members does not matter: what a record is built from has passed the
checks of its fields. And what holds of every record that is read can be told field by field. -/
namespace Outreach

def Doc.parts : Doc → List Doc
  | .arr xs => xs
  | .obj ms => ms.map (·.2)
  | _ => []

theorem Doc.parts_fit {n : Nat} {d : Doc} (h : d.Fits (n + 1)) : ∀ p ∈ d.parts, p.Fits n := by
  cases d with
  | arr xs => exact itemsFit_iff.mp h.2
  | obj ms =>
    intro p hp
    obtain ⟨m, hm, rfl⟩ := List.mem_map.mp hp
    exact membersFit_iff.mp h.2 m hm
  | _ => exact List.forall_mem_nil _

namespace Decode
open Json

variable {α β : Type} {o : Origin} {ms : List (String × Json)} {g : Json → Doc}

def among (ms : List (String × Json)) (c : Check) : Option Doc :=
  (Keyed.get? ms c.name).map fun j => Doc.ofJson j.sorted

def members (g : Json → Doc) (ms : List (String × Json)) : List (Option String × Doc) :=
  ms.map fun m => (some m.1, g m.2)

theorem ofMembers_eq (ms : List (String × Json)) : Doc.ofMembers ms = members Doc.ofJson ms := by
  induction ms with
  | nil => rfl
  | cons m ms ih => rw [Doc.ofMembers, ih]; rfl

theorem ofItems_eq (xs : List Json) : Doc.ofItems xs = xs.map Doc.ofJson := by
  induction xs with
  | nil => rfl
  | cons j xs ih => rw [Doc.ofItems, ih]; rfl

theorem memberDocs_eq (limit n : Nat) (ms : List (String × Json)) :
    memberDocs limit n ms = members (docAt limit n) ms := by
  induction ms with
  | nil => rfl
  | cons m ms ih => rw [memberDocs, ih]; rfl

theorem itemDocs_eq (limit n : Nat) (xs : List Json) : itemDocs limit n xs = xs.map (docAt limit n) := by
  induction xs with
  | nil => rfl
  | cons j xs ih => rw [itemDocs, ih]; rfl

theorem isWhole_ofJson (j : Json) : (Doc.ofJson j).isWhole = true := Doc.isWhole_of_value? _ (value?_ofJson j)

mutual

theorem isWhole_docAt (limit n : Nat) (j : Json) : (docAt limit n j).isWhole = true := by
  match j with
  | .null | .bool _ | .str _ => rfl
  | .num x =>
    rw [docAt]
    cases x.reread? <;> rfl
  | .arr xs =>
    rw [docAt]
    split
    · rfl
    · exact itemsWhole_itemDocs limit (n + 1) xs
  | .obj ms =>
    rw [docAt]
    split
    · rfl
    · exact membersWhole_memberDocs limit (n + 1) ms

theorem itemsWhole_itemDocs (limit n : Nat) (xs : List Json) : Doc.itemsWhole (itemDocs limit n xs) = true := by
  match xs with
  | [] => rfl
  | j :: r => rw [itemDocs, Doc.itemsWhole, isWhole_docAt limit n j, itemsWhole_itemDocs limit n r, Bool.and_self]

theorem membersWhole_memberDocs (limit n : Nat) (ms : List (String × Json)) :
    Doc.membersWhole (memberDocs limit n ms) = true := by
  match ms with
  | [] => rfl
  | (k, j) :: r =>
    rw [memberDocs, Doc.membersWhole, isWhole_docAt limit n j, membersWhole_memberDocs limit n r, Bool.and_self]

end

theorem get?_ofList_sorted (hkeys : (ms.map (·.1)).Nodup) (key : String) :
    Keyed.get? (Keyed.ofList (sortedMembers ms)) key = (Keyed.get? ms key).map sorted := by
  rw [Keyed.get?_ofList (by rwa [keys_sortedMembers]), get?_sortedMembers]

theorem listFrom_map {dec : Decoder α} {f : α → Doc} {as : List α} (h : ∀ a ∈ as, dec o (f a) = .ok a) :
    listFrom dec o (as.map f) = .ok as := by
  induction as with
  | nil => rfl
  | cons a as ih =>
    obtain ⟨ha, has⟩ := List.forall_mem_cons.mp h
    rw [List.map_cons, listFrom, ha, ih has]
    rfl

namespace Fields
variable {fs : Fields α}

structure Plain (fs : Fields α) : Prop where
  named : ∀ c ∈ fs.checks, c.aliases = []
  passed : ∀ {o l find a}, fs.build o l find = .ok a → ∀ c ∈ fs.checks, ∀ d, find c = some d → c.run o d = .ok ()
  found : ∀ {find find' : Check → Option Doc}, (∀ c ∈ fs.checks, find c = find' c) →
    ∀ o l, fs.build o l find = fs.build o l find'

theorem Plain.field {name : String} {dec : Decoder α} {absent : Layout → Except DecodeError α} :
    (Fields.field name [] dec absent).Plain where
  named := by simp [Fields.field]
  passed {o l find a} h c hc d hd := by
    obtain rfl := List.mem_singleton.mp hc
    simp only [Fields.field, hd] at h
    simp only [h]
    rfl
  found {find find'} h o l := by simp only [Fields.field, h _ (List.mem_singleton.mpr rfl)]

theorem Plain.map {f : α → β} (h : fs.Plain) : (Fields.map f fs).Plain where
  named := h.named
  passed {o l find a} ha := by
    obtain ⟨b, hbuild, -⟩ := map_eq_ok.mp ha
    exact h.passed hbuild
  found hsame o l := congrArg (Except.map f) (h.found hsame o l)

theorem Plain.ap {ff : Fields (α → β)} (hf : ff.Plain) (h : fs.Plain) : (Fields.ap ff fs).Plain where
  named c hc := (List.mem_append.mp hc).elim (hf.named c) (h.named c)
  passed {o l find a} ha c hc := by
    obtain ⟨f, hbuild, ha⟩ := bind_eq_ok.mp ha
    obtain ⟨b, hbuild', -⟩ := bind_eq_ok.mp ha
    exact (List.mem_append.mp hc).elim (hf.passed hbuild c) (h.passed hbuild' c)
  found hsame o l := by
    have hleft := hf.found (fun c hc => hsame c (List.mem_append_left _ hc)) o l
    have hright := h.found (fun c hc => hsame c (List.mem_append_right _ hc)) o l
    simp only [Fields.ap, hleft, hright]

structure Reads (fs : Fields α) (o : Origin) (find : Check → Option Doc) (a : α) : Prop where
  plain : fs.Plain
  build : fs.build o .members find = .ok a

section Reads
variable {find : Check → Option Doc} {name : String} {dec : Decoder α} {absent : Layout → Except DecodeError α} {a : α}

theorem Reads.found {d : Doc} (hd : ∀ run, find ⟨name, [], run⟩ = some d) (h : dec o d = .ok a) :
    (Fields.field name [] dec absent).Reads o find a where
  plain := .field
  build := by
    simp only [Fields.field, hd]
    exact h

theorem Reads.lacking (hd : ∀ run, find ⟨name, [], run⟩ = none) (h : absent .members = .ok a) :
    (Fields.field name [] dec absent).Reads o find a where
  plain := .field
  build := by
    simp only [Fields.field, hd]
    exact h

theorem Reads.map {f : α → β} (h : fs.Reads o find a) : (Fields.map f fs).Reads o find (f a) where
  plain := h.plain.map
  build := by
    simp only [Fields.map, h.build]
    rfl

theorem Reads.ap {ff : Fields (α → β)} {f : α → β} (hf : ff.Reads o find f) (h : fs.Reads o find a) :
    (Fields.ap ff fs).Reads o find (f a) where
  plain := hf.plain.ap h.plain
  build := by
    simp only [Fields.ap, hf.build, h.build]
    rfl

theorem build_ap_error {ff : Fields (α → β)} {l : Layout} {e : DecodeError} (h : ff.build o l find = .error e) :
    (Fields.ap ff fs).build o l find = .error e := by
  simp only [Fields.ap, h]
  rfl

theorem Reads.build_ap_error {ff : Fields (α → β)} {f : α → β} {e : DecodeError} (hf : ff.Reads o find f)
    (h : fs.build o .members find = .error e) : (Fields.ap ff fs).build o .members find = .error e := by
  simp only [Fields.ap, hf.build, h]
  rfl

end Reads

theorem memberFor_members {c : Check} (hc : c.aliases = []) (ms : List (String × Json)) :
    memberFor (members g ms) c = (Keyed.get? ms c.name).map g := by
  induction ms with
  | nil => rfl
  | cons m ms ih =>
    rw [Keyed.get?_cons]
    by_cases hk : m.1 = c.name
    · simp [members, memberFor, Check.answersTo, hk]
    · rw [if_neg hk, ← ih]
      simp [members, memberFor, Check.answersTo, Ne.symm hk, hc]

/-- Members are visited without complaint when each passes the check of its field. -/
theorem visit_members {checks : List Check} {seen : List String} (hnamed : ∀ c ∈ checks, c.aliases = [])
    (hkeys : (ms.map (·.1)).Nodup) (hwhole : ∀ j, (g j).isWhole = true)
    (hpass : ∀ m ∈ ms, ∀ c ∈ checks, c.name = m.1 → c.run o (g m.2) = .ok ()) (hseen : ∀ m ∈ ms, m.1 ∉ seen) :
    visit checks o seen (members g ms) = .ok () := by
  induction ms generalizing seen with
  | nil => rfl
  | cons m ms ih =>
    obtain ⟨hnot, hrest⟩ := List.nodup_cons.mp hkeys
    obtain ⟨hm, hpass⟩ := List.forall_mem_cons.mp hpass
    obtain ⟨hnew, hseen⟩ := List.forall_mem_cons.mp hseen
    have hvisit (seen : List String) (hseen : ∀ m ∈ ms, m.1 ∉ seen) : visit checks o seen (members g ms) = .ok () :=
      ih hrest hpass hseen
    simp only [members] at hvisit
    simp only [members, List.map_cons, visit]
    split
    · rename_i c hfind
      have hc := List.mem_of_find?_eq_some hfind
      have hname : c.name = m.1 := by simpa [Check.answersTo, hnamed c hc] using List.find?_some hfind
      have hfresh : seen.contains c.name = false := by simpa [hname] using hnew
      rw [hfresh, hm c hc hname]
      apply hvisit _
      intro m' hm'
      rw [List.mem_cons, hname, not_or]
      exact ⟨fun heq => hnot (List.mem_map.mpr ⟨m', hm', heq⟩), hseen m' hm'⟩
    · rw [hwhole, if_pos rfl]
      exact hvisit seen hseen

theorem Plain.build_members (hfs : fs.Plain) (o : Origin) (g : Json → Doc) (ms : List (String × Json)) :
    fs.build o .members (memberFor (members g ms)) = fs.build o .members fun c => (Keyed.get? ms c.name).map g :=
  hfs.found (fun c hc => memberFor_members (hfs.named c hc) ms) o .members

/-- A record is read from its members, in whatever order they stand. -/
theorem Reads.object {a : α} (h : fs.Reads o (fun c => (Keyed.get? ms c.name).map g) a) (hkeys : (ms.map (·.1)).Nodup)
    (hwhole : ∀ j, (g j).isWhole = true) : fs.object o (.obj (members g ms)) = .ok a := by
  have hvisit : visit fs.checks o [] (members g ms) = .ok () := by
    refine visit_members h.plain.named hkeys hwhole (fun m hm c hc hname => ?_) fun m _ => List.not_mem_nil
    refine h.plain.passed h.build c hc (g m.2) ?_
    rw [hname, Keyed.get?_of_mem hkeys hm]
    rfl
  simp only [Fields.object, hvisit]
  exact (h.plain.build_members o g ms).trans h.build

theorem Reads.congr {a : α} {find find' : Check → Option Doc} (h : fs.Reads o find a)
    (hsame : ∀ c, find' c = find c) : fs.Reads o find' a :=
  ⟨h.plain, (h.plain.found (fun c _ => hsame c) o .members).trans h.build⟩

theorem Reads.object_docAt {limit n : Nat} {a : α}
    (h : fs.Reads o (fun c => (Keyed.get? ms c.name).map (docAt limit (n + 1))) a) (hn : n + 1 ≤ limit)
    (hkeys : (ms.map (·.1)).Nodup) : fs.object o (docAt limit n (.obj ms)) = .ok a := by
  rw [docAt, if_neg (by omega), memberDocs_eq]
  exact h.object hkeys (isWhole_docAt limit (n + 1))

theorem Reads.object_sorted {a : α} (h : fs.Reads o (among ms) a) (hkeys : (ms.map (·.1)).Nodup) :
    fs.object o (Doc.ofJson (Json.obj ms).sorted) = .ok a := by
  rw [sorted, Doc.ofJson, ofMembers_eq]
  refine Reads.object (h.congr fun c => ?_) (Keyed.ofList_ascending _).nodup isWhole_ofJson
  rw [get?_ofList_sorted hkeys, Option.map_map]
  rfl

theorem Plain.object_error (hfs : fs.Plain) {e : DecodeError}
    (h : fs.build o .members (fun c => (Keyed.get? ms c.name).map g) = .error e) :
    ∃ e', fs.object o (.obj (members g ms)) = .error e' := by
  simp only [Fields.object, hfs.build_members, h]
  cases visit fs.checks o [] (members g ms) with
  | error e' => exact ⟨e', rfl⟩
  | ok _ => exact ⟨e, rfl⟩

end Fields

section Tagged
variable {tag name : String} {variants : List (String × β)}

theorem splitTag_of_not_mem (h : tag ∉ ms.map (·.1)) (found : Option β) :
    splitTag tag variants o (members g ms) found = .ok (found, members g ms) := by
  induction ms with
  | nil => rfl
  | cons m ms ih =>
    obtain ⟨hm, hms⟩ := not_or.mp (mt List.mem_cons.mpr h)
    simp only [members] at ih
    simp only [members, List.map_cons, splitTag, ih hms]
    rw [if_neg (by simpa using Ne.symm hm)]
    rfl

theorem splitTag_members (hkeys : (ms.map (·.1)).Nodup) (htag : Keyed.get? ms tag = some (.str name))
    (hg : g (.str name) = .str name) : splitTag tag variants o (members g ms) none =
      (variantNamed variants name).map fun b => (some b, members g (Keyed.erase ms tag)) := by
  -- Up to the tag the members are set aside one by one; behind it nothing has its name, so all of the rest is.
  induction ms with
  | nil => cases htag
  | cons m ms ih =>
    obtain ⟨hnot, hrest⟩ := List.nodup_cons.mp hkeys
    rw [Keyed.get?_cons] at htag
    by_cases hm : m.1 = tag
    · rw [if_pos hm, Option.some.injEq] at htag
      have hvalue : tagValue variants o (g m.2) = variantNamed variants name := by
        rw [htag, hg]
        rfl
      have herase : Keyed.erase (m :: ms) tag = ms := by
        rw [Keyed.erase, List.filter_cons_of_neg (by simp [hm])]
        refine List.filter_eq_self.mpr fun e he => bne_iff_ne.mpr fun heq => ?_
        exact hnot (List.mem_map.mpr ⟨e, he, heq.trans hm.symm⟩)
      have hsplit (b : β) : splitTag tag variants o (members g ms) (some b) = .ok (some b, members g ms) :=
        splitTag_of_not_mem (by rwa [← hm]) (some b)
      simp only [members] at hsplit
      simp only [members, List.map_cons, splitTag, hm, beq_self_eq_true, if_true, hvalue]
      rw [herase]
      cases variantNamed variants name with
      | error e => rfl
      | ok b => exact hsplit b
    · rw [if_neg hm] at htag
      have herase : Keyed.erase (m :: ms) tag = m :: Keyed.erase ms tag :=
        List.filter_cons_of_pos (bne_iff_ne.mpr hm)
      have hsplit := ih hrest htag
      simp only [members] at hsplit
      simp only [members, List.map_cons, splitTag, hsplit, herase]
      rw [if_neg (by simpa using hm)]
      cases variantNamed variants name <;> rfl

/-- A tagged record is read from its sorted members without the tag. -/
theorem tagged_sorted {variants : List (String × Decoder α)} {fs : Fields α} {a : α}
    (hname : variantNamed variants name = .ok fs.object) (h : fs.Reads .setAside (among ms) a)
    (hkeys : (tag :: ms.map (·.1)).Nodup) :
    tagged tag variants o (Doc.ofJson (Json.obj ((tag, .str name) :: ms)).sorted) = .ok a := by
  have hget (key : String) : Keyed.get? (Keyed.ofList (sortedMembers ((tag, .str name) :: ms))) key =
      (Keyed.get? ((tag, .str name) :: ms) key).map sorted :=
    get?_ofList_sorted (by simpa using hkeys) key
  obtain ⟨ns, hns⟩ : ∃ ns, ns = Keyed.ofList (sortedMembers ((tag, .str name) :: ms)) := ⟨_, rfl⟩
  have hnodup : (ns.map (·.1)).Nodup := hns ▸ (Keyed.ofList_ascending _).nodup
  rw [sorted, Doc.ofJson, ofMembers_eq]
  rw [← hns] at hget ⊢
  have htag : Keyed.get? ns tag = some (.str name) := by
    rw [hget, Keyed.get?_cons, if_pos rfl]
    rfl
  have hsplit : splitTag tag variants o (members Doc.ofJson ns) none =
      .ok (some fs.object, members Doc.ofJson (Keyed.erase ns tag)) := by
    rw [splitTag_members hnodup htag rfl, hname]
    rfl
  have herased : ((Keyed.erase ns tag).map (·.1)).Nodup := hnodup.sublist (List.filter_sublist.map _)
  simp only [tagged, hsplit]
  refine Fields.Reads.object (h.congr fun c => ?_) herased isWhole_ofJson
  rw [Keyed.get?_erase, hget, Keyed.get?_cons, among]
  split
  · rename_i hc
    rw [← hc, Keyed.get?_eq_none (List.nodup_cons.mp hkeys).1]
    rfl
  · rw [Option.map_map]
    rfl

end Tagged

section Yields
variable {D : Doc → Prop} {P : α → Prop} {Q : β → Prop}

def Yields (D : Doc → Prop) (P : α → Prop) (dec : Decoder α) : Prop :=
  ∀ o d, (∀ p ∈ d.parts, D p) → ∀ a, dec o d = .ok a → P a

def Fields.Yields (D : Doc → Prop) (P : α → Prop) (fs : Fields α) : Prop :=
  ∀ o l (find : Check → Option Doc), (∀ c d, find c = some d → D d) → ∀ a, fs.build o l find = .ok a → P a

theorem Fields.yields_field {name : String} {aliases : List String} {dec : Decoder α}
    {absent : Layout → Except DecodeError α} (h : ∀ o d, D d → ∀ a, dec o d = .ok a → P a)
    (habsent : ∀ l a, absent l = .ok a → P a) : (Fields.field name aliases dec absent).Yields D P := by
  intro o l find hfind a ha
  simp only [Fields.field] at ha
  split at ha
  · rename_i d hd
    exact h o d (hfind _ d hd) a ha
  · exact habsent l a ha

theorem Fields.Yields.map {f : α → β} {fs : Fields α} (h : fs.Yields D fun a => Q (f a)) :
    (Fields.map f fs).Yields D Q := by
  intro o l find hfind b hb
  obtain ⟨a, hbuild, rfl⟩ := map_eq_ok.mp hb
  exact h o l find hfind a hbuild

theorem Fields.Yields.ap {ff : Fields (α → β)} {fs : Fields α} (hf : ff.Yields D fun f => ∀ a, P a → Q (f a))
    (h : fs.Yields D P) : (Fields.ap ff fs).Yields D Q := by
  intro o l find hfind b hb
  obtain ⟨f, hbuild, hb⟩ := bind_eq_ok.mp hb
  obtain ⟨a, hbuild', hb⟩ := bind_eq_ok.mp hb
  cases hb
  exact hf o l find hfind f hbuild a (h o l find hfind a hbuild')

theorem Fields.Yields.object {fs : Fields α} (h : fs.Yields D P) : Decode.Yields D P fs.object := by
  intro o d hd a ha
  unfold Fields.object at ha
  split at ha
  · rename_i ms
    obtain ⟨-, -, hbuild⟩ := bind_eq_ok.mp ha
    refine h o .members (memberFor ms) (fun c d hc => hd d ?_) a hbuild
    obtain ⟨m, hm, rfl⟩ := Option.map_eq_some_iff.mp hc
    exact List.mem_map_of_mem (List.mem_of_find?_eq_some hm)
  · rename_i ds
    obtain ⟨-, -, ha⟩ := bind_eq_ok.mp ha
    obtain ⟨b, hbuild, ha⟩ := bind_eq_ok.mp ha
    have hb : P b := by
      refine h o .positions (positionFor fs.checks ds) (fun c d hc => hd d ?_) b hbuild
      obtain ⟨m, hm, rfl⟩ := Option.map_eq_some_iff.mp hc
      exact (List.of_mem_zip (List.mem_of_find?_eq_some hm)).2
    split at ha
    · cases ha
      exact hb
    · cases ha
  · cases ha

theorem mem_of_tagValue {variants : List (String × β)} {d : Doc} {b : β} (h : tagValue variants o d = .ok b) :
    ∃ v ∈ variants, v.2 = b := by
  unfold tagValue at h
  split at h
  · unfold variantNamed at h
    split at h
    · rename_i v hv
      cases h
      exact ⟨v, List.mem_of_find?_eq_some hv, rfl⟩
    · cases h
  · split at h
    · rename_i v hv
      cases h
      split at hv
      · cases hv
      · exact ⟨v, List.mem_of_getElem? hv, rfl⟩
    · cases h
  · cases h

theorem of_splitTag {tag : String} {variants : List (String × β)} {ms rest : List (Option String × Doc)}
    {found found' : Option β} (h : splitTag tag variants o ms found = .ok (found', rest)) :
    (∀ m ∈ rest, m ∈ ms) ∧ ∀ b, found' = some b → found = some b ∨ ∃ v ∈ variants, v.2 = b := by
  induction ms generalizing found rest with
  | nil =>
    cases h
    exact ⟨fun m hm => hm, fun b hb => .inl hb⟩
  | cons m ms ih =>
    obtain ⟨k, d⟩ := m
    cases k with
    | none => cases h
    | some k =>
      unfold splitTag at h
      split at h
      · cases found with
        | some b => cases h
        | none =>
          obtain ⟨b, hvalue, h⟩ := bind_eq_ok.mp h
          obtain ⟨hrest, hfound⟩ := ih h
          refine ⟨fun m hm => List.mem_cons_of_mem _ (hrest m hm), fun b' hb' => .inr ?_⟩
          obtain hb | hb := hfound b' hb'
          · cases hb
            exact mem_of_tagValue hvalue
          · exact hb
      · obtain ⟨⟨found₁, rest₁⟩, hsplit, h⟩ := bind_eq_ok.mp h
        cases h
        obtain ⟨hrest, hfound⟩ := ih hsplit
        refine ⟨fun m hm => ?_, hfound⟩
        obtain rfl | hm := List.mem_cons.mp hm
        · exact List.mem_cons_self
        · exact List.mem_cons_of_mem _ (hrest m hm)

theorem yields_tagged {tag : String} {variants : List (String × Decoder α)} (h : ∀ v ∈ variants, Yields D P v.2) :
    Yields D P (tagged tag variants) := by
  intro o d hd a ha
  unfold tagged at ha
  split at ha
  · obtain ⟨⟨found, rest⟩, hsplit, ha⟩ := bind_eq_ok.mp ha
    obtain ⟨hrest, hfound⟩ := of_splitTag hsplit
    cases found with
    | none => cases ha
    | some dec =>
      obtain hdec | ⟨v, hv, rfl⟩ := hfound dec rfl
      · cases hdec
      · refine h v hv .setAside (.obj rest) (fun p hp => hd p ?_) a ha
        obtain ⟨m, hm, rfl⟩ := List.mem_map.mp hp
        exact List.mem_map_of_mem (hrest m hm)
  · obtain ⟨dec, hvalue, ha⟩ := bind_eq_ok.mp ha
    obtain ⟨v, hv, rfl⟩ := mem_of_tagValue hvalue
    exact h v hv .setAside (.arr _) (fun p hp => hd p (List.mem_cons_of_mem _ hp)) a ha
  · cases ha
  · cases ha

theorem Fields.yields_all {fs : Fields α} (h : ∀ a, P a) : fs.Yields D P := fun _ _ _ _ a _ => h a

theorem Fields.Yields.ap_any {ff : Fields (α → β)} {fs : Fields α} (hf : ff.Yields D fun f => ∀ a, Q (f a)) :
    (Fields.ap ff fs).Yields D Q :=
  Fields.Yields.ap (P := fun _ => True) (fun o l find hfind f h a _ => hf o l find hfind f h a)
    (Fields.yields_all fun _ => trivial)

theorem yields_bare {a : α} (h : P a) : Yields D P (bare a) := by
  intro o d _ b hb
  cases hb
  exact h

end Yields

section Scalars

theorem nat_int {k bound : Nat} (h : k < bound) : Decode.nat bound o (.num (.int k)) = .ok k := by
  have hrange : (0 : Int) ≤ k ∧ (k : Int) < bound := by omega
  rw [Decode.nat, intIn, if_pos hrange]
  rfl

theorem lt_of_nat {k bound : Nat} {d : Doc} (h : Decode.nat bound o d = .ok k) : k < bound := by
  obtain ⟨i, hi, rfl⟩ := map_eq_ok.mp h
  unfold intIn at hi
  split at hi
  · split at hi
    · cases hi
      omega
    · cases hi
  · cases hi

theorem json_docAt {j : Json} (hj : j.Canonical) {limit n : Nat} (hdepth : n + j.depth ≤ limit)
    (hnumbers : ∀ x ∈ j.numbers, x.reread? = some x) : Decode.json o (docAt limit n j) = .ok j := by
  rw [Decode.json, value?_docAt j hj (by omega), if_pos hdepth, (reread?_eq_self j).mpr hnumbers]

theorem json_docAt_error {j : Json} (hj : j.Canonical) {limit n : Nat} (hn : n ≤ limit) (hdepth : limit < n + j.depth) :
    Decode.json o (docAt limit n j) = .error .malformed := by
  rw [Decode.json, value?_docAt j hj hn, if_neg (by omega)]

end Scalars

section Lists
variable {dec : Decoder α} {encode : α → Json} {as : List α}

theorem list_sorted (h : ∀ a ∈ as, dec o (Doc.ofJson (encode a).sorted) = .ok a) :
    Decode.list dec o (Doc.ofJson (Json.arr (as.map encode)).sorted) = .ok as := by
  rw [sorted, Doc.ofJson, ofItems_eq, sortedItems_eq, List.map_map, List.map_map]
  exact listFrom_map h

theorem listFrom_eq_mapM (dec : Decoder α) (o : Origin) (ds : List Doc) : listFrom dec o ds = ds.mapM (dec o) := by
  induction ds with
  | nil => rfl
  | cons d ds ih => rw [List.mapM_cons, listFrom, ih]

theorem list_docAt_eq_ok {limit k : Nat} (hk : k < limit) {bs : List α} :
    Decode.list dec o (docAt limit k (.arr (as.map encode))) = .ok bs ↔
      List.Forall₂ (fun a b => dec o (docAt limit (k + 1) (encode a)) = .ok b) as bs := by
  rw [docAt, if_neg (by omega), itemDocs_eq, Decode.list, listFrom_eq_mapM, mapM_eq_ok, List.map_map,
    List.forall₂_map_left_iff]
  rfl

theorem mem_of_listFrom {ds : List Doc} {bs : List α} (h : listFrom dec o ds = .ok bs) {b : α} (hb : b ∈ bs) :
    ∃ d ∈ ds, dec o d = .ok b := by
  rw [listFrom_eq_mapM] at h
  exact mem_of_mapM h b hb

theorem listFrom_error {ds : List Doc} {d : Doc} (hd : d ∈ ds) {e : DecodeError} (h : dec o d = .error e) :
    ∃ e', listFrom dec o ds = .error e' := by
  induction ds with
  | nil => cases hd
  | cons d' ds ih =>
    rw [listFrom]
    cases hd' : dec o d' with
    | error e' => exact ⟨e', rfl⟩
    | ok a =>
      obtain rfl | hd := List.mem_cons.mp hd
      · cases h.symm.trans hd'
      · obtain ⟨e', hrest⟩ := ih hd
        exact ⟨e', by rw [hrest]; rfl⟩

theorem docAt_list (encode : α → Json) (as : List α) :
    docAt depthLimit 0 (.arr (as.map encode)) = .arr (as.map fun a => docAt depthLimit 1 (encode a)) := by
  rw [docAt, if_neg (by decide), itemDocs_eq, List.map_map]
  rfl

theorem ofText_list (h : ∀ a ∈ as, dec .text (docAt depthLimit 1 (encode a)) = .ok a) :
    Decode.ofText (Decode.list dec) (Json.arr (as.map encode)).text = .ok as := by
  simp only [Decode.ofText, Json.read, readWithin_text, docAt_list, Decode.list, listFrom_map h]
  rfl

theorem ofText_list_error {a : α} (ha : a ∈ as) {e : DecodeError}
    (h : dec .text (docAt depthLimit 1 (encode a)) = .error e) :
    ∃ e', Decode.ofText (Decode.list dec) (Json.arr (as.map encode)).text = .error e' := by
  have hmem : docAt depthLimit 1 (encode a) ∈ as.map fun a => docAt depthLimit 1 (encode a) :=
    List.mem_map_of_mem ha
  obtain ⟨e', herror⟩ := listFrom_error hmem h
  simp only [Decode.ofText, Json.read, readWithin_text, docAt_list, Decode.list, herror]
  exact ⟨e', rfl⟩

/-- What is read from a list in a text stands within it. -/
theorem mem_of_ofText {s : String} {bs : List α} (h : Decode.ofText (Decode.list dec) s = .ok bs) {b : α}
    (hb : b ∈ bs) : ∃ d, d.Fits (depthLimit - 1) ∧ dec .text d = .ok b := by
  have hfits := readWithin_fits depthLimit s
  obtain ⟨as, has, h⟩ := bind_eq_ok.mp h
  have hsame : as = bs := by
    split at h
    · cases h
      rfl
    · cases h
  subst hsame
  change Decode.list dec .text (readWithin depthLimit s).1 = .ok as at has
  unfold Decode.list at has
  split at has
  · rename_i items hitems
    rw [hitems] at hfits
    obtain ⟨d, hd, hdec⟩ := mem_of_listFrom has hb
    exact ⟨d, Doc.itemsFit_iff.mp hfits.2 d hd, hdec⟩
  · cases has

end Lists

end Decode
end Outreach
