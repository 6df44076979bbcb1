import Outreach.Proofs.Automation.Stats
import Outreach.Proofs.Automation.Written
import Outreach.Proofs.Json.Verbatim
import Outreach.Proofs.Time.Loose
import Outreach.Proofs.Uuid

/-! Automations as documents. Nothing of an automation is lost in its document. Its text loses nothing either, as long
as no sample nests too deep in it and each number is read back from its own text. -/
namespace Outreach
open Decode Json Fields

variable {o : Origin}

theorem Condition.numbers_encode (c : Condition) : c.encode.numbers = [] := by
  cases c with
  | businessHours operator days opens closes =>
    have hdays : itemsNumbers (days.map Json.str) = [] := itemsNumbers_map_eq_nil (fun _ => rfl) days
    simp [encode, strs, numbers, membersNumbers, hdays]
  | _ => simp [encode, numbers, membersNumbers]

namespace Action

theorem numbers_unlessEmpty (name value : String) : membersNumbers (unlessEmpty name value) = [] := by
  rw [unlessEmpty]
  split <;> rfl

/-- The counts of an action are small enough to be read back. -/
theorem reread_of_mem_numbers {a : Action} (h : a.Storable) : ∀ x ∈ a.encode.numbers, x.reread? = some x := by
  have hcount {n : Nat} (hn : n < 2 ^ 32) : Number.reread? (.int n) = some (.int n) :=
    Number.reread?_int (by omega) (by omega)
  intro x hx
  cases a with
  | sendMessage kind text templateId flowId =>
    simp [encode, details, numbers, membersNumbers, membersNumbers_append, numbers_unlessEmpty] at hx
  | wait delay unit =>
    simp only [encode, details, numbers, membersNumbers, Json.nat, List.nil_append, List.append_nil,
      List.mem_singleton] at hx
    rw [hx]
    exact hcount h
  | conditional logic conditions =>
    have hconditions := itemsNumbers_map_eq_nil Condition.numbers_encode conditions
    simp [encode, details, numbers, membersNumbers, hconditions] at hx
  | httpRequest spec =>
    have hheaders : itemsNumbers (spec.headers.map fun h => .obj [("key", .str h.key), ("value", .str h.value)]) = [] :=
      itemsNumbers_map_eq_nil (fun _ => rfl) _
    have hmapping : itemsNumbers (spec.responseMapping.map fun m =>
        .obj [("jsonPath", .str m.jsonPath), ("contactField", .str m.contactField)]) = [] :=
      itemsNumbers_map_eq_nil (fun _ => rfl) _
    simp [encode, details, HttpRequestSpec.details, numbers, membersNumbers, hheaders, hmapping] at hx
  | randomizer branches =>
    simp only [encode, details, numbers, membersNumbers, Json.nat, List.append_nil, List.nil_append,
      List.mem_singleton] at hx
    rw [hx]
    exact hcount h
  | _ => simp [encode, details, numbers, membersNumbers] at hx

end Action

namespace Trigger

theorem numbers_of_no_sample {t : Trigger} (h : t.sample? = none) : t.encode.numbers = [] := by
  cases t with
  | webhook webhookId listening sample =>
    cases h
    rfl
  | _ => simp [encode, details, numbers, membersNumbers]

theorem sorted_webhook (webhookId : String) (listening : Bool) (j : Json) :
    (webhook webhookId listening (some j)).encode.sorted =
      .obj [("isListening", .bool listening), ("lastSample", j.sorted), ("type", .str "webhook"),
        ("webhookId", .str webhookId)] := by
  have hwebhook : ¬ "webhookId" < "type" := by decide
  have hlistening : "isListening" < "type" := by decide
  have hsample : "lastSample" < "type" := by decide
  have hsample' : ¬ "lastSample" < "isListening" := by decide
  simp only [encode, details, subType, ofOption, id, sorted, sortedMembers, Keyed.ofList, List.foldl_cons,
    List.foldl_nil, Keyed.put, hwebhook, hlistening, hsample, hsample', if_true, if_false, Bool.false_eq_true,
    String.reduceBEq]

end Trigger

namespace NodeData
variable {d : NodeData} {v : Json}

def Typed (d : NodeData) : Prop := ∃ m, d.Storable m

theorem canonical_of_reread? {j : Json} (hj : j.Canonical) (h : j.reread? = some v) : v.Canonical := by
  refine value?_canonical (docAt j.depth 0 j) ?_
  rw [value?_docAt j hj (Nat.zero_le _), if_pos (Nat.zero_add _).le, h]

theorem ne_null_of_reread? {j : Json} (hj : j ≠ .null) (h : j.reread? = some v) : v ≠ .null := by
  rintro rfl
  cases j with
  | null => exact hj rfl
  | bool b | str s => cases h
  | num n =>
    obtain ⟨_, -, hnull⟩ := Option.map_eq_some_iff.mp h
    cases hnull
  | arr xs =>
    obtain ⟨_, -, hnull⟩ := Option.map_eq_some_iff.mp h
    cases hnull
  | obj ms =>
    obtain ⟨_, -, hnull⟩ := Option.map_eq_some_iff.mp h
    cases hnull

/-- What the text of data gives is data of its kind and type again. -/
theorem exists_of_reread? (h : d.Typed) (hv : d.encode.sorted.reread? = some v) :
    ∃ d' : NodeData, d'.Typed ∧ d'.kind = d.kind ∧ d'.subType = d.subType ∧ d'.encode.sorted = v := by
  obtain ⟨m, hd⟩ := h
  have hself (hnumbers : ∀ x ∈ d.encode.numbers, x.reread? = some x) : d.encode.sorted = v := by
    refine Option.some.inj (Eq.trans (Eq.symm ((reread?_eq_self _).mpr fun x hx => ?_)) hv)
    exact hnumbers x (numbers_sorted_subset _ hx)
  cases d with
  | action a => exact ⟨.action a, ⟨m, hd⟩, rfl, rfl, hself (Action.reread_of_mem_numbers hd)⟩
  | trigger t =>
    cases hsample : t.sample? with
    | none =>
      refine ⟨.trigger t, ⟨m, hd⟩, rfl, rfl, hself fun x hx => ?_⟩
      rw [encode, Trigger.numbers_of_no_sample hsample] at hx
      cases hx
    | some j =>
      obtain ⟨hcanonical, hnull, -⟩ := hd j hsample
      cases t with
      | webhook webhookId listening sample =>
        cases hsample
        rw [encode, Trigger.sorted_webhook, sorted_of_canonical j hcanonical] at hv
        cases hj : j.reread? with
        | none => simp [reread?, rereadMembers?, hj] at hv
        | some i =>
          have hcanonical' := canonical_of_reread? hcanonical hj
          refine ⟨.trigger (.webhook webhookId listening (some i)), ⟨i.depth, ?_⟩, rfl, rfl, ?_⟩
          · intro i' hi'
            cases hi'
            exact ⟨hcanonical', ne_null_of_reread? hnull hj, le_rfl⟩
          · rw [encode, Trigger.sorted_webhook, sorted_of_canonical i hcanonical']
            simpa [reread?, rereadMembers?, hj] using hv
      | _ => cases hsample

end NodeData

namespace Node
variable {n : Node} {limit k : Nat}

theorem typed_of_decode {ms : List (Option String × Doc)} (h : Node.decode o (.obj ms) = .ok n) : n.data.Typed := by
  obtain ⟨w, -, hcanonical, hnode⟩ := exists_stands h
  obtain ⟨ns, hns, hdecode⟩ := WrittenNode.data_of_node hnode
  exact ⟨w.data.depth, NodeData.storable_of_decode
    (WrittenNode.typedData_isRead ⟨hcanonical, Nat.le_succ w.data.depth⟩ hns) hdecode⟩

theorem decode_ofJson (h : n.data.Typed) (o : Origin) : Node.decode o (Doc.ofJson n.encode) = .ok n := by
  obtain ⟨m, h⟩ := h
  have hdata : Decode.json o (Doc.ofJson n.data.encode.sorted) = .ok n.data.encode.sorted := by
    rw [Decode.json, value?_ofJson, sorted_of_canonical _ (sorted_canonical _)]
  have hobject (p : Position) :
      Position.decode o (Doc.ofJson (.obj [("x", .num (.float p.x)), ("y", .num (.float p.y))])) = .ok p :=
    Reads.object_ofJson (.ap (.map (.found (d := .num (.float p.x)) (fun _ => rfl) rfl))
      (.found (d := .num (.float p.y)) (fun _ => rfl) rfl)) (by simp)
  have hposition (p : Position) :
      option Position.decode o (Doc.ofJson (.obj [("x", .num (.float p.x)), ("y", .num (.float p.y))])) = .ok (some p) :=
    congrArg (Except.map some) (hobject p)
  have hwritten : WrittenNode.fields.object o (Doc.ofJson n.encode) =
      .ok ⟨n.id, n.kind, n.subType, n.data.encode.sorted, n.position⟩ := by
    refine Reads.object_ofJson (.ap (.ap (.ap (.ap (.map (.found (fun _ => rfl) rfl))
      (.found (fun _ => rfl) n.kind.choice_text)) (.found (fun _ => rfl) rfl)) (.found (fun _ => rfl) hdata)) ?_) ?_
    · cases hp : n.position with
      | none => exact .lacking (fun _ => rfl) rfl
      | some p => exact .found (fun _ => rfl) (hposition p)
    · cases n.position <;> simp
  simp only [Node.decode, hwritten, bind, Except.bind, WrittenNode.node_of_encode h]
  rfl

theorem depth_encode (n : Node) : n.encode.depth = n.data.encode.sorted.depth + 1 := by
  have hdata : 1 ≤ n.data.encode.sorted.depth := by
    rw [NodeData.encode_eq, sorted, depth]
    exact Nat.le_add_left 1 _
  cases hp : n.position <;> simp [encode, depth, membersDepth, hp]
  omega

/-- The numbers of a node are those of its data and of its position. -/
theorem forall_numbers_iff {P : Number → Prop} : (∀ x ∈ n.encode.numbers, P x) ↔
    (∀ x ∈ n.data.encode.sorted.numbers, P x) ∧
      ∀ p, n.position = some p → P (.float p.x) ∧ P (.float p.y) := by
  cases hp : n.position with
  | none => simp [encode, hp, numbers, membersNumbers]
  | some p =>
    simp only [encode, hp, numbers, membersNumbers, List.nil_append, List.append_nil, List.cons_append,
      List.forall_mem_append, List.forall_mem_cons, List.not_mem_nil, false_imp_iff, implies_true, and_true,
      Option.some.injEq, forall_eq']

theorem keepsNumbers_iff : n.KeepsNumbers ↔ (∀ x ∈ n.data.encode.sorted.numbers, x.reread? = some x) ∧
    ∀ p, n.position = some p →
      (Number.float p.x).reread? = some (.float p.x) ∧ (Number.float p.y).reread? = some (.float p.y) :=
  forall_numbers_iff

/-- Data that is read from its text as it was stands within the limit, and its numbers come back. -/
theorem data_of_docAt {w : WrittenNode} (h : n.data.Typed) (hk : k ≤ limit)
    (hdata : Decode.json o (docAt limit k n.data.encode.sorted) = .ok w.data) (hnode : w.node = .ok n) :
    k + n.data.encode.sorted.depth ≤ limit ∧ ∀ x ∈ n.data.encode.sorted.numbers, x.reread? = some x := by
  have hcanonical := canonical_of_json hdata
  rw [Decode.json, value?_docAt _ (sorted_canonical _) hk] at hdata
  split at hdata
  · rename_i v hv
    cases hdata
    split at hv
    · rename_i hdepth
      refine ⟨hdepth, (reread?_eq_self _).mp ?_⟩
      obtain ⟨d, ⟨m, hd⟩, hkind, htype, hencode⟩ := NodeData.exists_of_reread? h hv
      obtain ⟨hid, hkind', hposition⟩ := WrittenNode.parts_of_node hnode
      have htype' := WrittenNode.subType_of_node hcanonical hnode
      have hwritten : w = ⟨n.id, d.kind, d.subType, d.encode.sorted, w.position⟩ := by
        obtain ⟨id, kind, subType, data, position⟩ := w
        simp only [WrittenNode.mk.injEq, hkind, htype, hencode, and_true]
        exact ⟨hid.symm, hkind'.symm, htype'.symm⟩
      have hnode' : w.node = .ok ⟨n.id, d, w.position⟩ := by
        rw [hwritten]
        exact WrittenNode.node_of_encode (n := ⟨n.id, d, w.position⟩) hd
      rw [hnode] at hnode'
      have hsame : n.data = d := congrArg Node.data (Except.ok.inj hnode')
      rw [hv, hsame, hencode]
    · cases hv
  · cases hdata

theorem float_of_docAt {x : Binary64} (h : float o (docAt limit k (.num (.float x))) = .ok x) :
    (Number.float x).reread? = some (.float x) := by
  rw [docAt] at h
  cases hx : (Number.float x).reread? with
  | none =>
    rw [hx] at h
    cases h
  | some r =>
    obtain ⟨y, rfl⟩ := Number.exists_float_of_reread? hx
    rw [hx] at h
    cases h
    rfl

theorem floats_of_docAt {p : Position} {y : Option Position}
    (h : option Position.decode o (docAt limit k (.obj [("x", .num (.float p.x)), ("y", .num (.float p.y))])) = .ok y) :
    ∃ q, y = some q ∧ float o (docAt limit (k + 1) (.num (.float p.x))) = .ok q.x ∧
      float o (docAt limit (k + 1) (.num (.float p.y))) = .ok q.y := by
  obtain ⟨hnull, -⟩ | ⟨q, hq, rfl⟩ := option_eq_ok h
  · rw [docAt] at hnull
    split at hnull <;> cases hnull
  · rw [docAt] at hq
    split at hq
    · cases hq
    · rw [memberDocs_eq] at hq
      obtain ⟨_, v, h₁, hv, rfl⟩ := build_ap_eq_ok (Position.plain_fields.build_of_object hq)
      obtain ⟨u, hu, rfl⟩ := build_map_eq_ok h₁
      obtain ⟨dx, hdx, hx⟩ := required_eq_ok hu
      obtain ⟨dy, hdy, hy⟩ := required_eq_ok hv
      rw [member?_members] at hdx hdy
      cases hdx
      cases hdy
      exact ⟨⟨u, v⟩, rfl, hx, hy⟩

theorem position_of_docAt {p : Position}
    (h : option Position.decode o (docAt limit k (.obj [("x", .num (.float p.x)), ("y", .num (.float p.y))])) =
      .ok (some p)) :
    (Number.float p.x).reread? = some (.float p.x) ∧ (Number.float p.y).reread? = some (.float p.y) := by
  obtain ⟨q, hq, hx, hy⟩ := floats_of_docAt h
  cases hq
  exact ⟨float_of_docAt hx, float_of_docAt hy⟩

/-- A node comes back from its text exactly when it stands within the limit and its numbers come back. -/
theorem decode_docAt_iff (h : n.data.Typed) :
    Node.decode o (docAt limit k n.encode) = .ok n ↔ k + n.encode.depth ≤ limit ∧ n.KeepsNumbers := by
  constructor
  · intro hread
    obtain ⟨w, hw, hnode⟩ := exists_written hread
    obtain ⟨-, -, hposition⟩ := WrittenNode.parts_of_node hnode
    rw [encode, docAt] at hw
    split at hw
    · cases hw
    · rename_i hlimit
      rw [memberDocs_eq] at hw
      have hstands := WrittenNode.stands_of_object hw
      obtain ⟨hnone, -⟩ | ⟨d, hd, hdata⟩ := hstands.data
      · rw [member?_members] at hnone
        cases hnone
      · rw [member?_members] at hd
        cases hd
        obtain ⟨hdepth, hnumbers⟩ := data_of_docAt h (by omega) hdata hnode
        refine ⟨by rw [depth_encode]; omega, keepsNumbers_iff.mpr ⟨hnumbers, fun p hp => ?_⟩⟩
        obtain ⟨hnone, -⟩ | ⟨d, hd, hread⟩ := hstands.position
        · rw [member?_members, hp] at hnone
          cases hnone
        · rw [member?_members, hp] at hd
          cases hd
          rw [← hposition, hp] at hread
          exact position_of_docAt hread
  · rintro ⟨hdepth, hnumbers⟩
    rw [docAt_eq_ofJson _ hdepth hnumbers]
    exact decode_ofJson h o

theorem ofText_text_iff (h : n.data.Typed) :
    Decode.ofText Node.decode n.encode.text = .ok n ↔ n.encode.depth ≤ depthLimit ∧ n.KeepsNumbers := by
  have hread : Decode.ofText Node.decode n.encode.text = Node.decode .text (docAt depthLimit 0 n.encode) := by
    simp only [Decode.ofText, Json.read, readWithin_text]
    cases Node.decode .text (docAt depthLimit 0 n.encode) <;> rfl
  rw [hread, decode_docAt_iff h, Nat.zero_add]

end Node

namespace Edge

theorem depth_encode_le (e : Edge) : e.encode.depth ≤ 1 := by
  cases hid : e.id <;> cases hhandle : e.sourceHandle <;> simp [encode, given, hid, hhandle, depth, membersDepth]

theorem numbers_encode (e : Edge) : e.encode.numbers = [] := by
  cases hid : e.id <;> cases hhandle : e.sourceHandle <;> simp [encode, given, hid, hhandle, numbers, membersNumbers]

theorem decode_ofJson (e : Edge) (o : Origin) : Edge.decode o (Doc.ofJson e.encode) = .ok e := by
  have hdepth : 0 + e.encode.depth ≤ 1 := by
    have := e.depth_encode_le
    omega
  have hnumbers : ∀ x ∈ e.encode.numbers, x.reread? = some x := by
    rw [e.numbers_encode]
    exact List.forall_mem_nil _
  rw [← docAt_eq_ofJson _ hdepth hnumbers]
  exact e.decode_encode le_rfl

end Edge

namespace ExecutionStats
variable {s : ExecutionStats}

theorem depth_encode_le (s : ExecutionStats) : s.encode.depth ≤ 2 := by
  refine Nat.succ_le_succ (membersDepth_le_iff.mpr fun m hm => ?_)
  obtain ⟨e, -, rfl⟩ := List.mem_map.mp hm
  simp [NodeStats.encode, Json.nat, depth, membersDepth]

theorem reread_of_mem_numbers (h : ∀ e ∈ s, e.2.Fits) : ∀ x ∈ s.encode.numbers, x.reread? = some x := by
  have hcount {n : Nat} (hn : n < 2 ^ 64) : Number.reread? (.int n) = some (.int n) :=
    Number.reread?_int (by omega) (by omega)
  intro x hx
  obtain ⟨m, hm, hx⟩ := mem_membersNumbers.mp hx
  obtain ⟨e, he, rfl⟩ := List.mem_map.mp hm
  simp only [NodeStats.encode, Json.nat, numbers, membersNumbers, List.nil_append, List.append_nil, List.cons_append,
    List.mem_cons, List.not_mem_nil, or_false] at hx
  obtain rfl | rfl | rfl := hx
  · exact hcount (h e he).total
  · exact hcount (h e he).success
  · exact hcount (h e he).error

theorem decode_ofJson (hs : Keyed.Ascending s) (h : ∀ e ∈ s, e.2.Fits) (o : Origin) :
    ExecutionStats.decode o (Doc.ofJson s.encode) = .ok s := by
  have hdepth : 0 + s.encode.depth ≤ 2 := by
    have := s.depth_encode_le
    omega
  rw [← docAt_eq_ofJson _ hdepth (reread_of_mem_numbers h), encode, docAt, if_neg (by decide), ExecutionStats.decode,
    keyed, keyedFrom_encode h o le_rfl, Except.map, Keyed.ofList_of_ascending hs]

end ExecutionStats

theorem AutomationStatus.choice_text (status : AutomationStatus) :
    choice AutomationStatus.names o (.str status.text) = .ok status := by
  cases status <;> rfl

namespace Automation
variable {a : Automation}

structure Typed (a : Automation) : Prop where
  nodes : ∀ n ∈ a.nodes, n.data.Typed
  createdAt : a.createdAt.Proper
  ascending : Keyed.Ascending a.executionStats
  counters : ∀ e ∈ a.executionStats, e.2.Fits

theorem decode_ofJson (h : a.Typed) (o : Origin) : Automation.decode o (Doc.ofJson a.encode) = .ok a := by
  have huuid (u : Uuid) : uuid o (.str u.text) = .ok u := by
    simp only [uuid, parsed, string, bind, Except.bind, u.parse?_text]
  have hcreated : instant o (.str a.createdAt.text) = .ok a.createdAt := by
    simp only [instant, parsed, string, bind, Except.bind, Instant.ofLooseText?_text h.createdAt]
  have hnodes : Decode.list Node.decode o (Doc.ofJson (.arr (a.nodes.map Node.encode))) = .ok a.nodes :=
    list_ofJson fun n hn => Node.decode_ofJson (h.nodes n hn) o
  have hedges : Decode.list Edge.decode o (Doc.ofJson (.arr (a.edges.map Edge.encode))) = .ok a.edges :=
    list_ofJson fun e _ => e.decode_ofJson o
  exact Reads.object_ofJson (.ap (.ap (.ap (.ap (.ap (.ap (.ap (.ap (.ap (.map (.found (fun _ => rfl) (huuid a.id)))
    (.found (fun _ => rfl) (huuid a.userId))) (.found (fun _ => rfl) rfl))
    (.found (fun _ => rfl) a.status.choice_text)) (.found (fun _ => rfl) hnodes)) (.found (fun _ => rfl) hedges))
    (.found (fun _ => rfl) hcreated)) (.found (fun _ => rfl) rfl)) (.found (fun _ => rfl) rfl))
    (.found (fun _ => rfl) (ExecutionStats.decode_ofJson h.ascending h.counters o))) (by simp)

theorem depth_encode_le_iff : a.encode.depth ≤ depthLimit ↔ ∀ n ∈ a.nodes, 2 + n.encode.depth ≤ depthLimit := by
  have hnodes : itemsDepth (a.nodes.map Node.encode) ≤ depthLimit - 2 ↔ ∀ n ∈ a.nodes, n.encode.depth ≤ depthLimit - 2 :=
    itemsDepth_le_iff.trans List.forall_mem_map
  have hedges : itemsDepth (a.edges.map Edge.encode) ≤ 1 :=
    itemsDepth_le_iff.mpr (List.forall_mem_map.mpr fun e _ => e.depth_encode_le)
  have hstats := ExecutionStats.depth_encode_le a.executionStats
  simp only [depthLimit] at hnodes ⊢
  simp only [encode, depth, membersDepth]
  constructor
  · intro h n hn
    have hn := hnodes.mp (by omega) n hn
    omega
  · intro h
    have hall := hnodes.mpr fun n hn => Nat.le_sub_of_add_le' (h n hn)
    omega

/-- Only the numbers of the nodes are not read back from their texts in every case. -/
theorem numbers_iff (h : ∀ e ∈ a.executionStats, e.2.Fits) :
    (∀ x ∈ a.encode.numbers, x.reread? = some x) ↔ ∀ n ∈ a.nodes, n.KeepsNumbers := by
  have hnumbers : a.encode.numbers = itemsNumbers (a.nodes.map Node.encode) ++ a.executionStats.encode.numbers := by
    simp only [encode, numbers, membersNumbers, itemsNumbers_map_eq_nil Edge.numbers_encode, List.nil_append,
      List.append_nil]
  rw [hnumbers, List.forall_mem_append]
  constructor
  · rintro ⟨hall, -⟩ n hn x hx
    exact hall x (mem_itemsNumbers.mpr ⟨n.encode, List.mem_map_of_mem hn, hx⟩)
  · intro hall
    refine ⟨fun x hx => ?_, ExecutionStats.reread_of_mem_numbers h⟩
    obtain ⟨j, hj, hx⟩ := mem_itemsNumbers.mp hx
    obtain ⟨n, hn, rfl⟩ := List.mem_map.mp hj
    exact hall n hn x hx

/-- With an automation each of its nodes has come back. -/
theorem nodes_of_docAt (h : Automation.decode o (docAt depthLimit 0 a.encode) = .ok a) :
    ∀ n ∈ a.nodes, Node.decode o (docAt depthLimit 2 n.encode) = .ok n := by
  rw [encode, docAt, if_neg (by decide), memberDocs_eq] at h
  have hbuild := Plain.build_of_object
    (.ap (.ap (.ap (.ap (.ap (.ap (.ap (.ap (.ap (.map .field) .field) .field) .field) .field) .field) .field) .field)
      .field) .field) h
  obtain ⟨_, stats, h₉, -, hsame⟩ := build_ap_eq_ok hbuild
  obtain ⟨_, blocked, h₈, -, rfl⟩ := build_ap_eq_ok h₉
  obtain ⟨_, reactivated, h₇, -, rfl⟩ := build_ap_eq_ok h₈
  obtain ⟨_, created, h₆, -, rfl⟩ := build_ap_eq_ok h₇
  obtain ⟨_, edges, h₅, -, rfl⟩ := build_ap_eq_ok h₆
  obtain ⟨_, nodes, h₄, hnodes, rfl⟩ := build_ap_eq_ok h₅
  obtain ⟨_, status, h₃, -, rfl⟩ := build_ap_eq_ok h₄
  obtain ⟨_, name, h₂, -, rfl⟩ := build_ap_eq_ok h₃
  obtain ⟨_, userId, h₁, -, rfl⟩ := build_ap_eq_ok h₂
  obtain ⟨id, -, rfl⟩ := build_map_eq_ok h₁
  have hgiven : nodes = a.nodes := congrArg Automation.nodes hsame
  obtain ⟨hnone, -⟩ | ⟨d, hd, hlist⟩ := withDefault_eq_ok hnodes
  · rw [member?_members] at hnone
    cases hnone
  · rw [member?_members] at hd
    cases hd
    rw [hgiven] at hlist
    exact List.forall₂_same.mp ((list_docAt_eq_ok (by decide)).mp hlist)

/-- An automation comes back from its text exactly when none of its samples nests too deep and the numbers of its
nodes come back. -/
theorem ofText_text_iff (h : a.Typed) : Decode.ofText Automation.decode a.encode.text = .ok a ↔
    a.encode.depth ≤ depthLimit ∧ ∀ n ∈ a.nodes, n.KeepsNumbers := by
  constructor
  · intro hread
    simp only [Decode.ofText, Json.read, readWithin_text] at hread
    obtain ⟨b, hb, hsame⟩ := bind_eq_ok.mp hread
    cases hsame
    have hnodes (n : Node) (hn : n ∈ a.nodes) : 2 + n.encode.depth ≤ depthLimit ∧ n.KeepsNumbers :=
      (Node.decode_docAt_iff (h.nodes n hn)).mp (nodes_of_docAt hb n hn)
    exact ⟨depth_encode_le_iff.mpr fun n hn => (hnodes n hn).1, fun n hn => (hnodes n hn).2⟩
  · rintro ⟨hdepth, hnumbers⟩
    rw [ofText_of_reading? (reading?_eq_self.mpr ⟨hdepth, (numbers_iff h.counters).mpr hnumbers⟩)]
    exact decode_ofJson h .text

/-- Nothing is lost in a document: an automation is read from it as it was, and whatever object a node was read from
names its id, kind, type and position, and the node is read again from its own document. A text gives as much exactly
when it does not nest too deep and the numbers in the nodes are read back from their texts. -/
theorem documents_come_back (o : Origin) :
    (∀ a : Automation, a.Typed → Automation.decode o (Doc.ofJson a.encode) = .ok a ∧
      (Decode.ofText Automation.decode a.encode.text = .ok a ↔
        a.encode.depth ≤ depthLimit ∧ ∀ n ∈ a.nodes, n.KeepsNumbers)) ∧
    ∀ ms (n : Node), Node.decode o (.obj ms) = .ok n → n.Keeps ms ∧
      (∀ o', Node.decode o' (Doc.ofJson n.encode) = .ok n) ∧
      (Decode.ofText Node.decode n.encode.text = .ok n ↔ n.encode.depth ≤ depthLimit ∧ n.KeepsNumbers) := by
  refine ⟨fun a ha => ⟨decode_ofJson ha o, ofText_text_iff ha⟩, fun ms n hn => ?_⟩
  have htyped := Node.typed_of_decode hn
  exact ⟨Node.keeps_of_decode hn, fun o' => Node.decode_ofJson htyped o', Node.ofText_text_iff htyped⟩

def drawn : Automation :=
  ⟨.numbered 1, .numbered 2, "drawn", .draft, [⟨"t", .trigger .contactCreated, some ⟨⟨false, 8472617768752846, -97⟩, .zero⟩⟩],
    [], ⟨1717408800, 0⟩, false, false, []⟩

theorem drawn_typed : drawn.Typed := by
  refine ⟨?_, ⟨.inl (by decide), by decide, by decide⟩, Keyed.ascending_nil, List.forall_mem_nil _⟩
  intro n hn
  rw [List.mem_singleton.mp hn]
  exact ⟨0, Trigger.storable_of_none rfl⟩

def bareNode : List (Option String × Doc) :=
  [(some "id", .str "t"), (some "type", .str "trigger"), (some "subType", .str "contact_created")]

theorem documents_come_back_drawn :
    (drawn.Typed ∧ Automation.decode .text (Doc.ofJson drawn.encode) = .ok drawn) ∧
    (Node.decode .text (.obj bareNode) = .ok ⟨"t", .trigger .contactCreated, none⟩ ∧
      Node.Keeps ⟨"t", .trigger .contactCreated, none⟩ bareNode) := by
  have hbare : Node.decode .text (.obj bareNode) = .ok ⟨"t", .trigger .contactCreated, none⟩ := rfl
  obtain ⟨hautomations, hnodes⟩ := documents_come_back .text
  exact ⟨⟨drawn_typed, (hautomations drawn drawn_typed).1⟩, hbare, (hnodes bareNode _ hbare).1⟩

/-- The text of this position is read as the number below, `5.346973538119999e-14`. -/
theorem drawn_lost_in_text : drawn.Typed ∧ Decode.ofText Automation.decode drawn.encode.text ≠ .ok drawn := by
  refine ⟨drawn_typed, fun hread => ?_⟩
  obtain ⟨-, hnumbers⟩ := (ofText_text_iff drawn_typed).mp hread
  have hx := (hnumbers _ List.mem_cons_self).position rfl |>.1
  exact absurd hx (by decide)

end Automation
end Outreach
