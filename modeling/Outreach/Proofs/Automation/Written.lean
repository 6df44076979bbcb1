import Outreach.Proofs.Automation.Graph

/-! What a node keeps of the object that it is read from. Its id and its kind stand there, and its data is of the type
that the object names. -/
namespace Outreach
open Decode Json Fields

variable {α β : Type} {o : Origin}

def Doc.member? (ms : List (Option String × Doc)) (name : String) : Option Doc :=
  (ms.find? (·.1 == some name)).map (·.2)

def Doc.Names (d : Doc) (name : String) : Prop := d = .str name ∨ ∃ e, d = .obj [(some name, e)]

namespace Decode.Fields
variable {ms : List (Option String × Doc)} {find : String → Option Doc} {fs : Fields α} {ff : Fields (α → β)}
  {name : String} {dec : Decoder α} {a : α} {b : β}

theorem memberFor_eq {c : Check} (hc : c.aliases = []) (ms : List (Option String × Doc)) :
    memberFor ms c = Doc.member? ms c.name := by
  have hanswers : (fun m : Option String × Doc => m.1.any c.answersTo) = fun m => m.1 == some c.name := by
    funext m
    cases hm : m.1 with
    | none => rfl
    | some key =>
      rw [Option.any_some, Check.answersTo, hc, List.contains_nil, Bool.or_false, Option.some_beq_some]
      exact Bool.eq_iff_iff.mpr ⟨fun h => beq_iff_eq.mpr (beq_iff_eq.mp h).symm,
        fun h => beq_iff_eq.mpr (beq_iff_eq.mp h).symm⟩
  rw [memberFor, hanswers, Doc.member?]

theorem member?_members (g : Json → Doc) (ms : List (String × Json)) (name : String) :
    Doc.member? (members g ms) name = (Keyed.get? ms name).map g :=
  (memberFor_eq (c := ⟨name, [], fun _ _ => .ok ()⟩) rfl _).symm.trans (memberFor_members rfl ms)

theorem Plain.build_of_object (hfs : fs.Plain) (h : fs.object o (.obj ms) = .ok a) :
    fs.build o .members (fun c => Doc.member? ms c.name) = .ok a := by
  obtain ⟨-, -, hbuild⟩ := bind_eq_ok.mp h
  rw [← hbuild]
  exact hfs.found (fun c hc => (memberFor_eq (hfs.named c hc) ms).symm) o .members

theorem build_ap_eq_ok {find : Check → Option Doc} {l : Layout} (h : (Fields.ap ff fs).build o l find = .ok b) :
    ∃ f a, ff.build o l find = .ok f ∧ fs.build o l find = .ok a ∧ f a = b := by
  obtain ⟨f, hf, h⟩ := bind_eq_ok.mp h
  obtain ⟨a, ha, h⟩ := bind_eq_ok.mp h
  exact ⟨f, a, hf, ha, Except.ok.inj h⟩

theorem build_map_eq_ok {find : Check → Option Doc} {l : Layout} {f : α → β}
    (h : (Fields.map f fs).build o l find = .ok b) : ∃ a, fs.build o l find = .ok a ∧ f a = b :=
  map_eq_ok.mp h

theorem required_eq_ok (h : (Fields.required name dec).build o .members (fun c => find c.name) = .ok a) :
    ∃ d, find name = some d ∧ dec o d = .ok a := by
  simp only [Fields.required, Fields.field] at h
  cases hd : find name with
  | none =>
    rw [hd] at h
    cases h
  | some d =>
    rw [hd] at h
    exact ⟨d, rfl, h⟩

theorem withDefault_eq_ok {l : Layout} {given : α}
    (h : (Fields.withDefault name given dec).build o l (fun c => find c.name) = .ok a) :
    (find name = none ∧ a = given) ∨ ∃ d, find name = some d ∧ dec o d = .ok a := by
  simp only [Fields.withDefault, Fields.field] at h
  cases hd : find name with
  | none =>
    rw [hd] at h
    exact .inl ⟨rfl, (Except.ok.inj h).symm⟩
  | some d =>
    rw [hd] at h
    exact .inr ⟨d, rfl, h⟩

end Decode.Fields

namespace Decode
variable {variants : List (String × α)} {name : String} {d : Doc} {a : α}

theorem mem_of_variantNamed (h : variantNamed variants name = .ok a) : (name, a) ∈ variants := by
  unfold variantNamed at h
  split at h
  · rename_i v hv
    cases h
    have hname := List.find?_some hv
    rw [← beq_iff_eq.mp hname]
    exact List.mem_of_find?_eq_some hv
  · cases h

theorem names_of_choice (h : choice variants o d = .ok a) : ∃ name, d.Names name ∧ (name, a) ∈ variants := by
  unfold choice at h
  split at h
  · exact ⟨_, .inl rfl, mem_of_variantNamed h⟩
  · obtain ⟨b, hb, h⟩ := bind_eq_ok.mp h
    have hsame : b = a := by
      split at h
      · cases h
        rfl
      · cases h
        rfl
      · cases h
    exact ⟨_, .inr ⟨_, rfl⟩, mem_of_variantNamed (hsame ▸ hb)⟩
  · obtain ⟨-, -, h⟩ := bind_eq_ok.mp h
    obtain ⟨-, -, h⟩ := bind_eq_ok.mp h
    cases h
  · cases h
  · cases h

theorem string_eq_ok {s : String} (h : string o d = .ok s) : d = .str s := by
  unfold string at h
  split at h
  · cases h
    rfl
  · cases h

theorem float_eq_ok {x : Binary64} (h : float o d = .ok x) : ∃ n, d = .num n ∧ n.toFloat = x := by
  unfold float at h
  split at h
  · cases h
    exact ⟨_, rfl, rfl⟩
  · cases h

theorem option_eq_ok {dec : Decoder α} {x : Option α} (h : option dec o d = .ok x) :
    (d = .null ∧ x = none) ∨ ∃ a, dec o d = .ok a ∧ x = some a := by
  unfold option at h
  split at h
  · cases h
    exact .inl ⟨rfl, rfl⟩
  · obtain ⟨a, ha, rfl⟩ := map_eq_ok.mp h
    exact .inr ⟨a, ha, rfl⟩

theorem canonical_of_json {j : Json} (h : Decode.json o d = .ok j) : j.Canonical := by
  unfold Decode.json at h
  split at h
  · rename_i hvalue
    cases h
    exact value?_canonical d hvalue
  · cases h

/-- What holds of the values of each variant, by its name, holds of a tagged value by its tag. -/
theorem named_of_tagged {variants : List (String × Decoder α)} {P : String → α → Prop}
    (h : ∀ v ∈ variants, Decode.Yields (fun _ => True) (P v.1) v.2) {tag : String} {ms : List (String × Json)}
    (hkeys : (ms.map (·.1)).Nodup) (htag : Keyed.get? ms tag = some (.str name))
    (ha : tagged tag variants o (Doc.ofJson (.obj ms)) = .ok a) : P name a := by
  rw [Doc.ofJson, ofMembers_eq] at ha
  have hsplit : splitTag tag variants o (members Doc.ofJson ms) none = _ := splitTag_members hkeys htag rfl
  simp only [tagged, hsplit] at ha
  cases hname : variantNamed variants name with
  | error e =>
    rw [hname] at ha
    cases ha
  | ok dec =>
    rw [hname] at ha
    exact h (name, dec) (mem_of_variantNamed hname) _ _ (fun _ _ => trivial) a ha

end Decode

def Position.decode : Decoder Position :=
  (Position.mk <$> Fields.required "x" float <*> Fields.required "y" float).object

section Types
variable {ms : List (String × Json)} {name : String} (hkeys : (ms.map (·.1)).Nodup)
  (htype : Keyed.get? ms "type" = some (.str name))
include hkeys htype

theorem Trigger.subType_of_decode {t : Trigger} (h : Trigger.decode o (Doc.ofJson (.obj ms)) = .ok t) :
    t.subType = name := by
  refine named_of_tagged (P := fun name t => t.subType = name) ?_ hkeys htype h
  simp only [List.forall_mem_cons]
  refine ⟨yields_bare rfl, ?_, ?_, ?_, ?_, List.forall_mem_nil _⟩
  · exact Fields.Yields.object (.map (yields_all fun _ => rfl))
  · exact Fields.Yields.object (.ap_any (.map (yields_all fun _ _ => rfl)))
  · exact Fields.Yields.object (.ap_any (.map (yields_all fun _ _ => rfl)))
  · exact Fields.Yields.object (.ap_any (.ap_any (.map (yields_all fun _ _ _ => rfl))))

theorem Action.subType_of_decode {a : Action} (h : Action.decode o (Doc.ofJson (.obj ms)) = .ok a) :
    a.subType = name := by
  refine named_of_tagged (P := fun name a => a.subType = name) ?_ hkeys htype h
  simp only [List.forall_mem_cons]
  refine ⟨?_, ?_, ?_, ?_, ?_, ?_, ?_, yields_bare rfl, ?_, ?_, List.forall_mem_nil _⟩
  · exact Fields.Yields.object (.ap_any (.ap_any (.ap_any (.map (yields_all fun _ _ _ _ => rfl)))))
  · exact Fields.Yields.object (.ap_any (.map (yields_all fun _ _ => rfl)))
  · exact Fields.Yields.object (.map (yields_all fun _ => rfl))
  · exact Fields.Yields.object (.map (yields_all fun _ => rfl))
  · exact Fields.Yields.object (.ap_any (.map (yields_all fun _ _ => rfl)))
  · exact Fields.Yields.object (.ap_any (.map (yields_all fun _ _ => rfl)))
  · exact Fields.Yields.object (.map (yields_all fun _ => rfl))
  · exact Fields.Yields.object (.map (yields_all fun _ => rfl))
  · exact Fields.Yields.object (.map (yields_all fun _ => rfl))

theorem NodeData.subType_of_decode {kind : NodeKind} {data : NodeData}
    (h : NodeData.decode kind o (Doc.ofJson (.obj ms)) = .ok data) : data.subType = name := by
  cases kind with
  | trigger =>
    obtain ⟨t, ht, rfl⟩ := map_eq_ok.mp h
    exact t.subType_of_decode hkeys htype ht
  | action =>
    obtain ⟨a, ha, rfl⟩ := map_eq_ok.mp h
    exact a.subType_of_decode hkeys htype ha

end Types

namespace Position
variable {p : Position} {d : Doc}

theorem plain_fields : (Position.mk <$> Fields.required "x" float <*> Fields.required "y" float).Plain :=
  .ap (.map .field) .field

def StandsIn (p : Position) (d : Doc) : Prop :=
  ∃ x y : Number, p = ⟨x.toFloat, y.toFloat⟩ ∧
    (d = .arr [.num x, .num y] ∨
      ∃ ms, d = .obj ms ∧ Doc.member? ms "x" = some (.num x) ∧ Doc.member? ms "y" = some (.num y))

theorem standsIn_of_decode (h : Position.decode o d = .ok p) : p.StandsIn d := by
  cases d with
  | obj ms =>
    obtain ⟨_, v, h₁, hv, rfl⟩ := build_ap_eq_ok (plain_fields.build_of_object h)
    obtain ⟨u, hu, rfl⟩ := build_map_eq_ok h₁
    obtain ⟨dx, hdx, hfirst⟩ := required_eq_ok hu
    obtain ⟨dy, hdy, hsecond⟩ := required_eq_ok hv
    obtain ⟨x, rfl, rfl⟩ := float_eq_ok hfirst
    obtain ⟨y, rfl, rfl⟩ := float_eq_ok hsecond
    exact ⟨x, y, rfl, .inr ⟨ms, rfl, hdx, hdy⟩⟩
  | arr ds =>
    obtain ⟨-, -, h⟩ := bind_eq_ok.mp h
    obtain ⟨q, hbuild, h⟩ := bind_eq_ok.mp h
    split at h
    · rename_i hlength
      cases h
      match ds with
      | [] => cases hbuild
      | [dx] => cases dx <;> cases hbuild
      | [dx, dy] =>
        obtain ⟨_, v, h₁, hv, rfl⟩ := build_ap_eq_ok hbuild
        obtain ⟨u, hu, rfl⟩ := build_map_eq_ok h₁
        obtain ⟨x, rfl, rfl⟩ := float_eq_ok (o := o) (d := dx) hu
        obtain ⟨y, rfl, rfl⟩ := float_eq_ok (o := o) (d := dy) hv
        exact ⟨x, y, rfl, .inl rfl⟩
      | _ :: _ :: _ :: r => exact absurd hlength (Nat.not_le.mpr (Nat.le_add_left 3 r.length))
    · cases h
  | _ => cases h

end Position

theorem NodeData.kind_of_decode {kind : NodeKind} {d : Doc} {data : NodeData} (h : NodeData.decode kind o d = .ok data) :
    data.kind = kind := by
  cases kind with
  | trigger =>
    obtain ⟨t, -, rfl⟩ := map_eq_ok.mp h
    rfl
  | action =>
    obtain ⟨a, -, rfl⟩ := map_eq_ok.mp h
    rfl

theorem NodeKind.text_of_mem {name : String} {kind : NodeKind} (h : (name, kind) ∈ NodeKind.names) : name = kind.text := by
  simp only [NodeKind.names, List.mem_cons, List.not_mem_nil, or_false] at h
  obtain h | h := h
  · cases h
    rfl
  · cases h
    rfl

namespace WrittenNode
variable {w : WrittenNode} {n : Node} {ms : List (Option String × Doc)}

structure Stands (w : WrittenNode) (o : Origin) (find : String → Option Doc) : Prop where
  id : ∃ d, find "id" = some d ∧ string o d = .ok w.id
  kind : ∃ d, find "type" = some d ∧ choice NodeKind.names o d = .ok w.kind
  subType : ∃ d, find "subType" = some d ∧ string o d = .ok w.subType
  data : (find "data" = none ∧ w.data = .null) ∨ ∃ d, find "data" = some d ∧ Decode.json o d = .ok w.data
  position : (find "position" = none ∧ w.position = none) ∨
    ∃ d, find "position" = some d ∧ option Position.decode o d = .ok w.position

theorem stands_of_object (h : fields.object o (.obj ms) = .ok w) : w.Stands o (Doc.member? ms) := by
  obtain ⟨_, position, h₄, hposition, rfl⟩ := build_ap_eq_ok (plain_fields.build_of_object h)
  obtain ⟨_, data, h₃, hdata, rfl⟩ := build_ap_eq_ok h₄
  obtain ⟨_, subType, h₂, hsubType, rfl⟩ := build_ap_eq_ok h₃
  obtain ⟨_, kind, h₁, hkind, rfl⟩ := build_ap_eq_ok h₂
  obtain ⟨id, hid, rfl⟩ := build_map_eq_ok h₁
  exact ⟨required_eq_ok hid, required_eq_ok hkind, required_eq_ok hsubType, withDefault_eq_ok hdata,
    withDefault_eq_ok hposition⟩

theorem parts_of_node (h : w.node = .ok n) : n.id = w.id ∧ n.kind = w.kind ∧ n.position = w.position := by
  obtain ⟨ms, -, h⟩ := bind_eq_ok.mp h
  split at h
  · rename_i hdecode
    cases h
    exact ⟨rfl, NodeData.kind_of_decode hdecode, rfl⟩
  · cases h

theorem data_of_node (h : w.node = .ok n) :
    ∃ ms, w.typedData = .ok ms ∧ NodeData.decode w.kind .value (Doc.ofJson (.obj ms)) = .ok n.data := by
  obtain ⟨ms, hms, h⟩ := bind_eq_ok.mp h
  refine ⟨ms, hms, ?_⟩
  split at h
  · rename_i hdecode
    cases h
    exact hdecode
  · cases h

theorem type_of_typedData (hdata : w.data.Canonical) {ms : List (String × Json)} (h : w.typedData = .ok ms) :
    (ms.map (·.1)).Nodup ∧ Keyed.get? ms "type" = some (.str w.subType) := by
  unfold typedData at h
  cases hw : w.data with
  | null =>
    rw [hw] at h
    cases h
    exact ⟨(Keyed.put_ascending Keyed.ascending_nil).nodup, rfl⟩
  | obj ns =>
    rw [hw] at h hdata
    dsimp only at h
    split at h
    · rename_i tag htag
      obtain ⟨j, hj, hstring⟩ := Option.bind_eq_some_iff.mp htag
      split at h
      · rename_i hsame
        cases h
        refine ⟨hdata.1.nodup, ?_⟩
        cases j with
        | str s =>
          cases hstring
          rw [hj, hsame]
        | _ => cases hstring
      · cases h
    · cases h
      refine ⟨(Keyed.put_ascending hdata.1).nodup, ?_⟩
      rw [Keyed.get?_put, if_pos rfl]
  | _ =>
    rw [hw] at h
    cases h

theorem subType_of_node (hdata : w.data.Canonical) (h : w.node = .ok n) : n.subType = w.subType := by
  obtain ⟨ms, hms, hdecode⟩ := data_of_node h
  obtain ⟨hkeys, htype⟩ := type_of_typedData hdata hms
  exact NodeData.subType_of_decode hkeys htype hdecode

end WrittenNode

namespace Node
variable {n m : Node}

theorem exists_written {d : Doc} (h : Node.decode o d = .ok n) :
    ∃ w, WrittenNode.fields.object o d = .ok w ∧ w.node = .ok n := by
  obtain ⟨w, hw, h⟩ := bind_eq_ok.mp h
  refine ⟨w, hw, ?_⟩
  cases hnode : w.node with
  | error e =>
    rw [hnode] at h
    cases h
  | ok n' =>
    rw [hnode] at h
    cases h
    rfl

/-- Whatever becomes of the rest, a node comes back from its text with its id and its kind. -/
theorem of_decode_encode {limit k : Nat} (h : Node.decode o (docAt limit k n.encode) = .ok m) :
    m.id = n.id ∧ m.kind = n.kind := by
  obtain ⟨w, hw, hnode⟩ := exists_written h
  obtain ⟨hid, hkind, -⟩ := WrittenNode.parts_of_node hnode
  rw [encode, docAt] at hw
  split at hw
  · cases hw
  · rw [memberDocs_eq] at hw
    have hstands := WrittenNode.stands_of_object hw
    obtain ⟨d, hd, hid'⟩ := hstands.id
    obtain ⟨e, he, hkind'⟩ := hstands.kind
    rw [member?_members] at hd he
    cases hd
    cases he
    exact ⟨hid.trans (Except.ok.inj hid').symm, hkind.trans (Except.ok.inj (n.kind.choice_text.symm.trans hkind')).symm⟩

structure Keeps (n : Node) (ms : List (Option String × Doc)) : Prop where
  id : Doc.member? ms "id" = some (.str n.id)
  kind : ∃ d, Doc.member? ms "type" = some d ∧ d.Names n.kind.text
  subType : Doc.member? ms "subType" = some (.str n.subType)
  position : (n.position = none ∧ (Doc.member? ms "position" = none ∨ Doc.member? ms "position" = some .null)) ∨
    ∃ p d, n.position = some p ∧ Doc.member? ms "position" = some d ∧ p.StandsIn d

variable {ms : List (Option String × Doc)}

theorem exists_stands (h : Node.decode o (.obj ms) = .ok n) :
    ∃ w : WrittenNode, w.Stands o (Doc.member? ms) ∧ w.data.Canonical ∧ w.node = .ok n := by
  obtain ⟨w, hw, hnode⟩ := exists_written h
  have hstands := WrittenNode.stands_of_object hw
  refine ⟨w, hstands, ?_, hnode⟩
  obtain ⟨-, hnull⟩ | ⟨d, -, hdata⟩ := hstands.data
  · rw [hnull]
    trivial
  · exact canonical_of_json hdata

theorem keeps_of_decode (h : Node.decode o (.obj ms) = .ok n) : n.Keeps ms := by
  obtain ⟨w, hstands, hcanonical, hnode⟩ := exists_stands h
  obtain ⟨hid, hkind, hposition⟩ := WrittenNode.parts_of_node hnode
  constructor
  · obtain ⟨d, hd, hstring⟩ := hstands.id
    rw [hd, string_eq_ok hstring, hid]
  · obtain ⟨d, hd, hchoice⟩ := hstands.kind
    obtain ⟨name, hname, hmem⟩ := names_of_choice hchoice
    refine ⟨d, hd, ?_⟩
    rwa [hkind, ← NodeKind.text_of_mem hmem]
  · obtain ⟨d, hd, hstring⟩ := hstands.subType
    rw [hd, string_eq_ok hstring, WrittenNode.subType_of_node hcanonical hnode]
  · rw [hposition]
    obtain ⟨habsent, hnone⟩ | ⟨d, hd, hread⟩ := hstands.position
    · exact .inl ⟨hnone, .inl habsent⟩
    · obtain ⟨rfl, hnone⟩ | ⟨p, hp, hsome⟩ := option_eq_ok hread
      · exact .inl ⟨hnone, .inr hd⟩
      · exact .inr ⟨p, d, hsome, hd, Position.standsIn_of_decode hp⟩

end Node
end Outreach
