import Outreach.Proofs.Automation.Document
import Outreach.Proofs.Automation.Validity
import Outreach.Proofs.Json.Indented

/-! The document of an automation, given to make another one. All but identity, owner, time and counters is taken from it,
as long as no sample nests too deep in it and each number of its nodes is read back from its own text. -/
namespace Outreach
open Decode Json Fields

variable {α : Type} {o : Origin}

theorem Decode.ofText_pretty (dec : Decoder α) (j : Json) : Decode.ofText dec j.pretty = Decode.ofText dec j.text := by
  rw [Decode.ofText, Decode.ofText, Json.read, Json.read, readWithin_pretty]

theorem Decode.ofText_text_eq (dec : Decoder α) (j : Json) : Decode.ofText dec j.text = dec .text (docAt depthLimit 0 j) := by
  simp only [Decode.ofText, Json.read, readWithin_text]
  cases dec .text (docAt depthLimit 0 j) <;> rfl

namespace Node
variable {n m : Node} {limit k : Nat}

def ReadsNumbers (n : Node) : Prop := ∀ x ∈ n.encode.numbers, x.reread?.isSome = true

theorem readsNumbers_iff : n.ReadsNumbers ↔ (∀ x ∈ n.data.encode.sorted.numbers, x.reread?.isSome = true) ∧
    ∀ p, n.position = some p → (Number.float p.x).reread?.isSome = true ∧ (Number.float p.y).reread?.isSome = true :=
  forall_numbers_iff

theorem float_isOk {x : Binary64} : (∃ y, float o (docAt limit k (.num (.float x))) = .ok y) ↔
    (Number.float x).reread?.isSome = true := by
  rw [docAt, Option.isSome_iff_exists]
  cases hx : (Number.float x).reread? with
  | none => exact ⟨nofun, nofun⟩
  | some r => exact ⟨fun _ => ⟨r, rfl⟩, fun _ => ⟨r.toFloat, rfl⟩⟩

/-- What can be read at all stands within the limit, and each of its numbers is read. -/
theorem readable_of_docAt (h : Node.decode o (docAt limit k n.encode) = .ok m) :
    k + n.encode.depth ≤ limit ∧ n.ReadsNumbers := by
  obtain ⟨w, hw, -⟩ := exists_written h
  rw [encode, docAt] at hw
  split at hw
  · cases hw
  · rename_i hlimit
    rw [memberDocs_eq] at hw
    have hstands := WrittenNode.stands_of_object hw
    obtain ⟨hnone, -⟩ | ⟨d, hd, hdata⟩ := hstands.data
    · rw [member?_members] at hnone
      cases hnone
    · rw [member?_members] at hd
      cases hd
      rw [Decode.json, value?_docAt _ (sorted_canonical _) (by omega)] at hdata
      split at hdata
      · rename_i v hv
        split at hv
        · rename_i hdepth
          refine ⟨by rw [depth_encode]; omega, readsNumbers_iff.mpr ⟨?_, fun p hp => ?_⟩⟩
          · exact (reread?_isSome _).mp (Option.isSome_of_eq_some hv)
          · obtain ⟨hnone, -⟩ | ⟨d, hd, hread⟩ := hstands.position
            · rw [member?_members, hp] at hnone
              cases hnone
            · rw [member?_members, hp] at hd
              cases hd
              obtain ⟨q, -, hx, hy⟩ := floats_of_docAt hread
              exact ⟨float_isOk.mp ⟨q.x, hx⟩, float_isOk.mp ⟨q.y, hy⟩⟩
        · cases hv
      · cases hdata

/-- A position whose numbers are read is read, as another one perhaps. -/
theorem exists_position_of_docAt {p : Position} (hk : k + 1 ≤ limit) (hx : (Number.float p.x).reread?.isSome = true)
    (hy : (Number.float p.y).reread?.isSome = true) :
    ∃ q, option Position.decode o (docAt limit k (.obj [("x", .num (.float p.x)), ("y", .num (.float p.y))])) =
      .ok (some q) := by
  obtain ⟨x, hx⟩ := float_isOk.mpr hx
  obtain ⟨y, hy⟩ := float_isOk.mpr hy
  exact ⟨⟨x, y⟩, position_docAt (q := ⟨x, y⟩) hx hy hk⟩

/-- A node can be read exactly when it stands within the limit and its numbers are read. -/
theorem docAt_isOk_iff (h : n.data.Typed) :
    (∃ m, Node.decode o (docAt limit k n.encode) = .ok m) ↔ k + n.encode.depth ≤ limit ∧ n.ReadsNumbers := by
  refine ⟨fun ⟨m, hm⟩ => readable_of_docAt hm, fun ⟨hdepth, hnumbers⟩ => ?_⟩
  obtain ⟨hreads, hplaced⟩ := readsNumbers_iff.mp hnumbers
  have hlevels : 1 ≤ n.data.encode.sorted.depth := by
    rw [NodeData.encode_eq, sorted, depth]
    exact Nat.le_add_left 1 _
  rw [depth_encode] at hdepth
  obtain ⟨v, hv⟩ := Option.isSome_iff_exists.mp ((reread?_isSome _).mpr hreads)
  -- The data comes back as data of its kind and type, whatever its numbers are read as.
  obtain ⟨d, ⟨m, hd⟩, hkind, htype, rfl⟩ := NodeData.exists_of_reread? h hv
  have hdata : Decode.json o (docAt limit (k + 1) n.data.encode.sorted) = .ok d.encode.sorted := by
    rw [Decode.json, value?_docAt _ (sorted_canonical _) (by omega), if_pos (by omega), hv]
  have hobject {q : Option Position} (hq : ∀ find : Check → Option Doc, (∀ run, find ⟨"position", [], run⟩ =
      n.position.map fun p => docAt limit (k + 1) (.obj [("x", .num (.float p.x)), ("y", .num (.float p.y))])) →
      (Fields.withDefault "position" none (option Position.decode)).Reads o find q) :
      WrittenNode.fields.object o (docAt limit k n.encode) = .ok ⟨n.id, n.kind, n.subType, d.encode.sorted, q⟩ := by
    refine Reads.object_docAt (.ap (.ap (.ap (.ap (.map (.found (fun _ => rfl) rfl))
      (.found (fun _ => rfl) n.kind.choice_text)) (.found (fun _ => rfl) rfl)) (.found (fun _ => rfl) hdata))
      (hq _ fun run => ?_)) (by omega) ?_
    · cases n.position <;> rfl
    · cases n.position <;> simp
  obtain ⟨q, hwritten⟩ : ∃ q, WrittenNode.fields.object o (docAt limit k n.encode) =
      .ok ⟨n.id, n.kind, n.subType, d.encode.sorted, q⟩ := by
    cases hp : n.position with
    | none => exact ⟨none, hobject fun find hfind => .lacking (by simpa [hp] using hfind) rfl⟩
    | some p =>
      obtain ⟨hx, hy⟩ := hplaced p hp
      have hk : k + 1 + 1 ≤ limit := by omega
      obtain ⟨q, hq⟩ := exists_position_of_docAt (o := o) hk hx hy
      exact ⟨some q, hobject fun find hfind => .found (by simpa [hp] using hfind) hq⟩
  have hnode : (⟨n.id, n.kind, n.subType, d.encode.sorted, q⟩ : WrittenNode).node = .ok ⟨n.id, d, q⟩ := by
    have hread := WrittenNode.node_of_encode (n := ⟨n.id, d, q⟩) hd
    rwa [Node.kind, Node.subType, hkind, htype] at hread
  simp only [Node.decode, hwritten, bind, Except.bind, hnode]
  exact ⟨_, rfl⟩

end Node

namespace Automation
variable {a : Automation} {new : NewAutomation}

def offer (a : Automation) : NewAutomation :=
  ⟨a.name, a.status, a.nodes, a.edges, a.allowReactivation, a.blockOnOpenChat⟩

/-- Each node of the new automation is read from one of the document. -/
theorem nodes_of_offer (h : NewAutomation.decode o (docAt depthLimit 0 a.encode) = .ok new) :
    List.Forall₂ (fun n m => Node.decode o (docAt depthLimit 2 n.encode) = .ok m) a.nodes new.nodes := by
  rw [encode, docAt, if_neg (by decide), memberDocs_eq] at h
  have hbuild := Plain.build_of_object (.ap (.ap (.ap (.ap (.ap (.map .field) .field) .field) .field) .field) .field) h
  obtain ⟨_, blocked, h₅, -, rfl⟩ := build_ap_eq_ok hbuild
  obtain ⟨_, reactivated, h₄, -, rfl⟩ := build_ap_eq_ok h₅
  obtain ⟨_, edges, h₃, -, rfl⟩ := build_ap_eq_ok h₄
  obtain ⟨_, nodes, h₂, hnodes, rfl⟩ := build_ap_eq_ok h₃
  obtain ⟨_, status, h₁, -, rfl⟩ := build_ap_eq_ok h₂
  obtain ⟨name, -, rfl⟩ := build_map_eq_ok h₁
  obtain ⟨hnone, -⟩ | ⟨d, hd, hlist⟩ := withDefault_eq_ok hnodes
  · rw [member?_members] at hnone
    cases hnone
  · rw [member?_members] at hd
    cases hd
    exact (list_docAt_eq_ok (by decide)).mp hlist

theorem offer_docAt_iff : NewAutomation.decode o (docAt depthLimit 0 a.encode) = .ok new ↔
    List.Forall₂ (fun n m => Node.decode o (docAt depthLimit 2 n.encode) = .ok m) a.nodes new.nodes ∧
      new = { a.offer with nodes := new.nodes } := by
  have hreads {nodes : List Node}
      (h : List.Forall₂ (fun n m => Node.decode o (docAt depthLimit 2 n.encode) = .ok m) a.nodes nodes) :
      NewAutomation.decode o (docAt depthLimit 0 a.encode) = .ok { a.offer with nodes := nodes } := by
    have hnodes : Decode.list Node.decode o (docAt depthLimit 1 (.arr (a.nodes.map Node.encode))) = .ok nodes :=
      (list_docAt_eq_ok (by decide)).mpr h
    have hedges : Decode.list Edge.decode o (docAt depthLimit 1 (.arr (a.edges.map Edge.encode))) = .ok a.edges :=
      (list_docAt_eq_ok (by decide)).mpr (List.forall₂_same.mpr fun e _ => e.decode_encode (by decide))
    exact Reads.object_docAt (.ap (.ap (.ap (.ap (.ap (.map (.found (fun _ => rfl) rfl))
      (.found (fun _ => rfl) a.status.choice_text)) (.found (fun _ => rfl) hnodes)) (.found (fun _ => rfl) hedges))
      (.found (fun _ => rfl) rfl)) (.found (fun _ => rfl) rfl)) (by decide) (by simp)
  constructor
  · intro h
    have hnodes := nodes_of_offer h
    exact ⟨hnodes, Except.ok.inj (h.symm.trans (hreads hnodes))⟩
  · rintro ⟨hnodes, hnew⟩
    rw [hnew]
    exact hreads hnodes

/-- The document can be read exactly when it does not nest too deep and the numbers in the nodes are read. -/
theorem offer_isOk_iff (h : ∀ n ∈ a.nodes, n.data.Typed) :
    (∃ new, Decode.ofText NewAutomation.decode a.encode.pretty = .ok new) ↔
      a.encode.depth ≤ depthLimit ∧ ∀ n ∈ a.nodes, n.ReadsNumbers := by
  have hnodes : (∃ new, NewAutomation.decode .text (docAt depthLimit 0 a.encode) = .ok new) ↔
      ∀ n ∈ a.nodes, ∃ m, Node.decode .text (docAt depthLimit 2 n.encode) = .ok m := by
    rw [← mapM_isOk]
    constructor
    · rintro ⟨new, hread⟩
      exact ⟨new.nodes, mapM_eq_ok.mpr (nodes_of_offer hread)⟩
    · rintro ⟨nodes, hread⟩
      exact ⟨{ a.offer with nodes := nodes }, offer_docAt_iff.mpr ⟨mapM_eq_ok.mp hread, rfl⟩⟩
  rw [Decode.ofText_pretty, Decode.ofText_text_eq, hnodes, depth_encode_le_iff, ← forall₂_and]
  exact forall₂_congr fun n hn => Node.docAt_isOk_iff (h n hn)

/-- The document says all that is taken from the automation exactly when it does not nest too deep and the numbers in
the nodes are read back from their texts. -/
theorem offer_iff (h : ∀ n ∈ a.nodes, n.data.Typed) : Decode.ofText NewAutomation.decode a.encode.pretty = .ok a.offer ↔
    a.encode.depth ≤ depthLimit ∧ ∀ n ∈ a.nodes, n.KeepsNumbers := by
  have hnodes : List.Forall₂ (fun n m => Node.decode .text (docAt depthLimit 2 n.encode) = .ok m) a.nodes a.offer.nodes ↔
      ∀ n ∈ a.nodes, 2 + n.encode.depth ≤ depthLimit ∧ n.KeepsNumbers :=
    List.forall₂_same.trans (forall₂_congr fun n hn => Node.decode_docAt_iff (h n hn))
  rw [Decode.ofText_pretty, Decode.ofText_text_eq, offer_docAt_iff, hnodes, depth_encode_le_iff, ← forall₂_and]
  exact and_iff_left rfl

/-- The whole automation stands around its nodes, so that a sample is lost which the nodes alone could still hold. -/
theorem offer_error {n : Node} (hn : n ∈ a.nodes) {webhookId : String} {listening : Bool} {j : Json}
    (hdata : n.data = .trigger (.webhook webhookId listening (some j))) (hj : j.Canonical) (hdepth : sampleLimit ≤ j.depth) :
    ∃ e, Decode.ofText NewAutomation.decode a.encode.pretty = .error e := by
  have hdeep : depthLimit < 2 + j.depth + 2 := by
    rw [sampleLimit, depthLimit] at hdepth
    rw [depthLimit]
    omega
  obtain ⟨e, herror⟩ := Node.decode_encode_error (o := .text) hdata hj (by decide) hdeep
  cases hread : Decode.ofText NewAutomation.decode a.encode.pretty with
  | error e => exact ⟨e, rfl⟩
  | ok new =>
    rw [Decode.ofText_pretty, Decode.ofText_text_eq] at hread
    obtain ⟨m, -, hm⟩ := exists_of_forall₂ (List.Forall₂.flip (nodes_of_offer hread)) n hn
    cases herror.symm.trans hm

/-- What is read from the document has the nodes of the automation by id and kind, and all that stands beside them. -/
theorem outline_of_offer (h : Decode.ofText NewAutomation.decode a.encode.pretty = .ok new) :
    new = { a.offer with nodes := new.nodes } ∧ ({ a with nodes := new.nodes } : Automation).outline = a.outline := by
  rw [Decode.ofText_pretty, Decode.ofText_text_eq, offer_docAt_iff] at h
  obtain ⟨hnodes, hnew⟩ := h
  refine ⟨hnew, ?_⟩
  rw [outline, outline, ← List.forall₂_eq_eq_eq, List.forall₂_map_left_iff, List.forall₂_map_right_iff]
  refine (hnodes.imp fun n m hread => ?_).flip
  obtain ⟨hid, hkind⟩ := Node.of_decode_encode hread
  exact Prod.ext hid hkind

end Automation
end Outreach
