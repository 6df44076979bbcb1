import Outreach.Automation.Basic
import Outreach.Proofs.Json.Records

/-! Graphs read back from the text they are stored as. Every node and edge comes back as it was, but for a webhook's
sample: one that is null comes back as none, and with one that nests too deep the text cannot be read at all. -/
namespace Outreach
open Decode Json Fields

variable {o : Origin}

def Json.unlessNull : Json → Option Json
  | .null => none
  | j => some j

theorem Json.unlessNull_eq_some {i j : Json} : i.unlessNull = some j ↔ i = j ∧ j ≠ .null := by
  cases i with
  | null =>
    simp only [unlessNull, reduceCtorEq, false_iff, not_and, not_not]
    exact fun h => h.symm
  | _ =>
    simp only [unlessNull, Option.some.injEq, iff_self_and]
    intro h
    simp [← h]

theorem option_json {j : Json} (h : j.Canonical) : option json o (Doc.ofJson j) = .ok j.unlessNull := by
  have hvalue : json o (Doc.ofJson j) = .ok j := by rw [Decode.json, value?_ofJson, sorted_of_canonical j h]
  cases j with
  | null => rfl
  | _ => exact congrArg (Except.map some) hvalue

def IsRead (m : Nat) (d : Doc) : Prop := ∃ j : Json, d = Doc.ofJson j ∧ j.Canonical ∧ j.depth ≤ m

namespace Condition

theorem decode_encode (c : Condition) : Condition.decode o (Doc.ofJson c.encode.sorted) = .ok c := by
  cases c with
  | contactTag operator value =>
    have hoperator : choice TagOperator.names .setAside (.str operator.text) = .ok operator := by
      cases operator <;> rfl
    exact tagged_sorted rfl (.ap (.map (.found (fun _ => rfl) hoperator)) (.found (fun _ => rfl) rfl)) (by simp)
  | conversationWindow operator =>
    have hoperator : choice WindowOperator.names .setAside (.str operator.text) = .ok operator := by
      cases operator <;> rfl
    exact tagged_sorted rfl (.map (.found (fun _ => rfl) hoperator)) (by simp)
  | contactField field operator value =>
    have hoperator : choice FieldOperator.names .setAside (.str operator.text) = .ok operator := by
      cases operator <;> rfl
    exact tagged_sorted rfl (.ap (.ap (.map (.found (fun _ => rfl) rfl)) (.found (fun _ => rfl) hoperator))
      (.found (fun _ => rfl) rfl)) (by simp)
  | businessHours operator days opens closes =>
    have hoperator : choice HoursOperator.names .setAside (.str operator.text) = .ok operator := by
      cases operator <;> rfl
    have hdays : Decode.list Decode.string .setAside (Doc.ofJson (Json.strs days).sorted) = .ok days :=
      list_sorted fun _ _ => rfl
    exact tagged_sorted rfl (.ap (.ap (.ap (.map (.found (fun _ => rfl) hoperator))
      (.found (fun _ => rfl) hdays)) (.found (fun _ => rfl) rfl)) (.found (fun _ => rfl) rfl)) (by simp)

theorem depth_encode_le (c : Condition) : c.encode.depth ≤ 2 := by
  cases c with
  | businessHours operator days opens closes =>
    have hdays : itemsDepth (days.map Json.str) ≤ 0 := itemsDepth_le_iff.mpr (by simp [depth])
    simp [encode, strs, depth, membersDepth, Nat.le_zero.mp hdays]
  | _ => simp [encode, depth, membersDepth]

end Condition

namespace Trigger

def sample? : Trigger → Option Json
  | .webhook _ _ sample => sample
  | _ => none

def Storable (m : Nat) (t : Trigger) : Prop := ∀ j, t.sample? = some j → j.Canonical ∧ j ≠ .null ∧ j.depth ≤ m

theorem keys_nodup (t : Trigger) : ("type" :: t.details.map (·.1)).Nodup := by
  cases t <;> simp [details]

theorem decode_encode {m : Nat} {t : Trigger} (h : t.Storable m) :
    Trigger.decode o (Doc.ofJson t.encode.sorted) = .ok t := by
  cases t with
  | contactCreated => rfl
  | tagAdded value => exact tagged_sorted rfl (.map (.found (fun _ => rfl) rfl)) (keys_nodup _)
  | crmStageChanged board stage =>
    exact tagged_sorted rfl (.ap (.map (.found (fun _ => rfl) rfl)) (.found (fun _ => rfl) rfl)) (keys_nodup _)
  | contextMessage kind value =>
    have hkind : choice MessageMatch.names .setAside (.str kind.text) = .ok kind := by cases kind <;> rfl
    exact tagged_sorted rfl (.ap (.map (.found (fun _ => rfl) hkind)) (.found (fun _ => rfl) rfl)) (keys_nodup _)
  | webhook webhookId listening sample =>
    have hsample : Decode.option Decode.json .setAside (Doc.ofJson (Json.ofOption id sample).sorted) = .ok sample := by
      cases sample with
      | none => rfl
      | some j =>
        obtain ⟨hcanonical, hnull, -⟩ := h j rfl
        rw [ofOption, id, sorted_of_canonical j hcanonical, option_json hcanonical]
        exact congrArg Except.ok (unlessNull_eq_some.mpr ⟨rfl, hnull⟩)
    exact tagged_sorted rfl (.ap (.ap (.map (.found (fun _ => rfl) rfl)) (.found (fun _ => rfl) rfl))
      (.found (fun _ => rfl) hsample)) (keys_nodup _)

theorem storable_of_none {m : Nat} {t : Trigger} (h : t.sample? = none) : t.Storable m := by
  intro j hj
  cases h.symm.trans hj

theorem sample_of_isRead {m : Nat} {d : Doc} (hd : IsRead m d) {sample : Option Json}
    (h : option json o d = .ok sample) : ∀ j, sample = some j → j.Canonical ∧ j ≠ .null ∧ j.depth ≤ m := by
  intro j hj
  obtain ⟨i, rfl, hcanonical, hdepth⟩ := hd
  rw [option_json hcanonical, hj] at h
  obtain ⟨rfl, hnull⟩ := unlessNull_eq_some.mp (Except.ok.inj h)
  exact ⟨hcanonical, hnull, hdepth⟩

theorem yields_storable (m : Nat) : Decode.Yields (IsRead m) (Storable m) Trigger.decode := by
  refine yields_tagged ?_
  simp only [List.forall_mem_cons]
  refine ⟨yields_bare (storable_of_none rfl), ?_, ?_, ?_, ?_, List.forall_mem_nil _⟩
  · exact (Yields.map (yields_all fun _ => storable_of_none rfl)).object
  · exact (Yields.ap_any (.map (yields_all fun _ _ => storable_of_none rfl))).object
  · exact (Yields.ap_any (.map (yields_all fun _ _ => storable_of_none rfl))).object
  · refine (Yields.ap (.ap_any (.map (yields_all fun _ _ sample h => ?_))) (yields_field
      (fun _ _ hd _ hsample => sample_of_isRead hd hsample) fun _ sample hnone => ?_)).object
    · exact h
    · cases hnone
      intro j hj
      cases hj

theorem depth_encode_le {m : Nat} {t : Trigger} (h : t.Storable m) : t.encode.depth ≤ m + 1 := by
  cases t with
  | webhook webhookId listening sample =>
    cases sample with
    | none => simp [encode, details, ofOption, depth, membersDepth]
    | some j => simpa [encode, details, ofOption, depth, membersDepth] using (h j rfl).2.2
  | _ => simp [encode, details, depth, membersDepth]

end Trigger

namespace HttpRequestSpec

theorem reads_details (s : HttpRequestSpec) : fields.Reads o (among s.details) s := by
  have hmethod : choice HttpMethod.names o (.str s.method.text) = .ok s.method := by cases s.method <;> rfl
  have hheaders : Decode.list headerFields.object o (Doc.ofJson (Json.arr (s.headers.map fun h =>
      .obj [("key", .str h.key), ("value", .str h.value)])).sorted) = .ok s.headers :=
    list_sorted fun _ _ =>
      Reads.object_sorted (.ap (.map (.found (fun _ => rfl) rfl)) (.found (fun _ => rfl) rfl)) (by simp)
  have hmapping : Decode.list mappingFields.object o (Doc.ofJson (Json.arr (s.responseMapping.map fun m =>
      .obj [("jsonPath", .str m.jsonPath), ("contactField", .str m.contactField)])).sorted) = .ok s.responseMapping :=
    list_sorted fun _ _ =>
      Reads.object_sorted (.ap (.map (.found (fun _ => rfl) rfl)) (.found (fun _ => rfl) rfl)) (by simp)
  exact .ap (.ap (.ap (.ap (.map (.found (fun _ => rfl) rfl)) (.found (fun _ => rfl) hmethod))
    (.found (fun _ => rfl) hheaders)) (.found (fun _ => rfl) rfl)) (.found (fun _ => rfl) hmapping)

end HttpRequestSpec

namespace Action

def Storable : Action → Prop
  | .wait delay _ => delay < 2 ^ 32
  | .randomizer branches => branches < 2 ^ 32
  | _ => True

theorem keys_nodup (a : Action) : ("type" :: a.details.map (·.1)).Nodup := by
  cases a with
  | sendMessage kind text templateId flowId =>
    simp only [details, unlessEmpty]
    split <;> split <;> split <;> simp
  | httpRequest spec => simp [details, HttpRequestSpec.details]
  | _ => simp [details]

theorem get?_unlessEmpty (name value key : String) : Keyed.get? (unlessEmpty name value) key =
    if name = key then if value = "" then none else some (.str value) else none := by
  by_cases hvalue : value = ""
  · simp [unlessEmpty, hvalue, Keyed.get?]
  · simp [unlessEmpty, hvalue, Keyed.get?]

theorem reads_unlessEmpty {name value : String} {find : Check → Option Doc}
    (h : ∀ run, find ⟨name, [], run⟩ =
      (if value = "" then none else some (Json.str value)).map fun j => Doc.ofJson j.sorted) :
    (Fields.withDefault name "" Decode.string).Reads o find value := by
  by_cases hvalue : value = ""
  · exact .lacking (fun run => by rw [h, if_pos hvalue]; rfl) (by rw [hvalue])
  · exact .found (fun run => by rw [h, if_neg hvalue]; rfl) rfl

theorem decode_encode {a : Action} (h : a.Storable) : Action.decode o (Doc.ofJson a.encode.sorted) = .ok a := by
  cases a with
  | sendMessage kind text templateId flowId =>
    have hkind : choice MessageKind.names .setAside (.str kind.name) = .ok kind := by cases kind <;> rfl
    refine tagged_sorted rfl (.ap (.ap (.ap (.map (.found (fun _ => rfl) hkind)) (reads_unlessEmpty fun run => ?_))
      (reads_unlessEmpty fun run => ?_)) (reads_unlessEmpty fun run => ?_)) (keys_nodup _)
    all_goals
      simp only [among, details, Keyed.get?_cons, Keyed.get?_append, get?_unlessEmpty]
      simp
  | wait delay unit =>
    have hunit : choice WaitUnit.names .setAside (.str unit.name) = .ok unit := by cases unit <;> rfl
    exact tagged_sorted rfl (.ap (.map (.found (fun _ => rfl) (nat_int h))) (.found (fun _ => rfl) hunit))
      (keys_nodup _)
  | addTag tagName => exact tagged_sorted rfl (.map (.found (fun _ => rfl) rfl)) (keys_nodup _)
  | removeTag tagName => exact tagged_sorted rfl (.map (.found (fun _ => rfl) rfl)) (keys_nodup _)
  | moveCrmStage board stage =>
    exact tagged_sorted rfl (.ap (.map (.found (fun _ => rfl) rfl)) (.found (fun _ => rfl) rfl)) (keys_nodup _)
  | conditional logic conditions =>
    have hlogic : choice Logic.names .setAside (.str logic.text) = .ok logic := by cases logic <;> rfl
    have hconditions : Decode.list Condition.decode .setAside
        (Doc.ofJson (Json.arr (conditions.map Condition.encode)).sorted) = .ok conditions :=
      list_sorted fun c _ => c.decode_encode
    exact tagged_sorted rfl (.ap (.map (.found (fun _ => rfl) hlogic)) (.found (fun _ => rfl) hconditions))
      (keys_nodup _)
  | httpRequest spec => exact tagged_sorted rfl (.map spec.reads_details) (keys_nodup _)
  | optOut => rfl
  | randomizer branches => exact tagged_sorted rfl (.map (.found (fun _ => rfl) (nat_int h))) (keys_nodup _)
  | forwardAutomation automationId => exact tagged_sorted rfl (.map (.found (fun _ => rfl) rfl)) (keys_nodup _)

theorem yields_storable (D : Doc → Prop) : Decode.Yields D Storable Action.decode := by
  refine yields_tagged ?_
  simp only [List.forall_mem_cons]
  refine ⟨?_, ?_, ?_, ?_, ?_, ?_, ?_, yields_bare trivial, ?_, ?_, List.forall_mem_nil _⟩
  · exact (Yields.ap_any (.ap_any (.ap_any (.map (yields_all fun _ _ _ _ => trivial))))).object
  · refine (Yields.ap_any (.map (yields_field (fun _ _ _ _ hdelay _ => ?_) fun _ _ habsent _ => ?_))).object
    · exact lt_of_nat hdelay
    · cases habsent
      exact Nat.two_pow_pos 32
  · exact (Yields.map (yields_all fun _ => trivial)).object
  · exact (Yields.map (yields_all fun _ => trivial)).object
  · exact (Yields.ap_any (.map (yields_all fun _ _ => trivial))).object
  · exact (Yields.ap_any (.map (yields_all fun _ _ => trivial))).object
  · exact (Yields.map (yields_all fun _ => trivial)).object
  · refine (Yields.map (yields_field (fun _ _ _ _ hbranches => ?_) fun _ _ habsent => ?_)).object
    · exact lt_of_nat hbranches
    · cases habsent
      exact (by decide : (2 : Nat) < 2 ^ 32)
  · exact (Yields.map (yields_all fun _ => trivial)).object

theorem depth_unlessEmpty (name value : String) : ∀ m ∈ unlessEmpty name value, m.2.depth ≤ 3 := by
  intro m hm
  rw [unlessEmpty] at hm
  split at hm
  · cases hm
  · rw [List.mem_singleton.mp hm]
    exact Nat.zero_le 3

theorem depth_details_le (a : Action) : ∀ m ∈ a.details, m.2.depth ≤ 3 := by
  cases a with
  | sendMessage kind text templateId flowId =>
    simp only [details, List.forall_mem_cons, List.forall_mem_append]
    exact ⟨Nat.zero_le 3, ⟨depth_unlessEmpty _ _, depth_unlessEmpty _ _⟩, depth_unlessEmpty _ _⟩
  | conditional logic conditions =>
    have hconditions : (Json.arr (conditions.map Condition.encode)).depth ≤ 3 :=
      depth_arr_map_le fun c _ => c.depth_encode_le
    exact List.forall_mem_cons.mpr ⟨Nat.zero_le 3, List.forall_mem_singleton.mpr hconditions⟩
  | httpRequest spec =>
    simp only [details, HttpRequestSpec.details, List.forall_mem_cons]
    refine ⟨Nat.zero_le 3, Nat.zero_le 3, ?_, Nat.zero_le 3, ?_, List.forall_mem_nil _⟩
    · exact depth_arr_map_le fun h _ => Nat.le_succ 1
    · exact depth_arr_map_le fun m _ => Nat.le_succ 1
  | _ => simp [details, depth, Json.nat]

theorem depth_encode_le (a : Action) : a.encode.depth ≤ 4 :=
  Nat.succ_le_succ (membersDepth_le_iff.mpr (List.forall_mem_cons.mpr ⟨Nat.zero_le 3, a.depth_details_le⟩))

end Action

namespace NodeData

/-- Comes back from where it is stored, with a sample of at most `m` levels. -/
def Storable (m : Nat) : NodeData → Prop
  | .trigger t => t.Storable m
  | .action a => a.Storable

def details : NodeData → List (String × Json)
  | .trigger t => t.details
  | .action a => a.details

theorem encode_eq (d : NodeData) : d.encode = .obj (("type", .str d.subType) :: d.details) := by
  cases d <;> rfl

theorem keys_nodup (d : NodeData) : ("type" :: d.details.map (·.1)).Nodup := by
  cases d with
  | trigger t => exact t.keys_nodup
  | action a => exact a.keys_nodup

variable {m : Nat} {d : NodeData}

theorem decode_encode (h : d.Storable m) : NodeData.decode d.kind o (Doc.ofJson d.encode.sorted) = .ok d := by
  cases d with
  | trigger t => exact congrArg (Except.map _) (Trigger.decode_encode h)
  | action a => exact congrArg (Except.map _) (Action.decode_encode h)

theorem storable_of_decode {kind : NodeKind} {doc : Doc} (hparts : ∀ p ∈ doc.parts, IsRead m p)
    (h : NodeData.decode kind o doc = .ok d) : d.Storable m := by
  cases kind with
  | trigger =>
    obtain ⟨t, ht, rfl⟩ := map_eq_ok.mp h
    exact Trigger.yields_storable m o doc hparts t ht
  | action =>
    obtain ⟨a, ha, rfl⟩ := map_eq_ok.mp h
    exact Action.yields_storable (IsRead m) o doc hparts a ha

theorem depth_encode_le (h : d.Storable m) : d.encode.depth ≤ max 4 (m + 1) := by
  cases d with
  | trigger t => exact le_max_of_le_right (Trigger.depth_encode_le h)
  | action a => exact le_max_of_le_left a.depth_encode_le

end NodeData

theorem NodeKind.choice_text (kind : NodeKind) : choice NodeKind.names o (.str kind.text) = .ok kind := by
  cases kind <;> rfl

namespace WrittenNode

theorem plain_fields : fields.Plain :=
  .ap (.ap (.ap (.ap (.map .field) .field) .field) .field) .field

theorem yields_data {m : Nat} : Fields.Yields (Doc.Fits m) (fun w => w.data.Canonical ∧ w.data.depth ≤ m) fields := by
  refine .ap_any (.ap (P := fun j => j.Canonical ∧ j.depth ≤ m)
    (.ap_any (.ap_any (.map (yields_all fun _ _ _ _ h _ => h))))
    (yields_field (fun _ d hd j hj => ?_) fun _ _ habsent => ?_))
  · rw [Decode.json] at hj
    split at hj
    · rename_i hvalue
      cases hj
      exact ⟨value?_canonical d hvalue, Doc.depth_le_of_fits d hd hvalue⟩
    · cases hj
  · cases habsent
    exact ⟨trivial, Nat.zero_le m⟩

theorem typedData_isRead {m : Nat} {w : WrittenNode} (hw : w.data.Canonical ∧ w.data.depth ≤ m + 1)
    {ms : List (String × Json)} (h : w.typedData = .ok ms) : ∀ p ∈ (Doc.ofJson (.obj ms)).parts, IsRead m p := by
  have hput (ns : List (String × Json)) (hns : ∀ e ∈ ns, e.2.Canonical ∧ e.2.depth ≤ m) :
      ∀ e ∈ Keyed.put "type" (.str w.subType) ns, e.2.Canonical ∧ e.2.depth ≤ m := by
    intro e he
    obtain rfl | he := Keyed.mem_put he
    · exact ⟨trivial, Nat.zero_le m⟩
    · exact hns e he
  have hms : ∀ e ∈ ms, e.2.Canonical ∧ e.2.depth ≤ m := by
    unfold typedData at h
    cases hdata : w.data with
    | null =>
      rw [hdata] at h
      cases h
      exact hput [] (List.forall_mem_nil _)
    | obj ns =>
      rw [hdata] at h hw
      obtain ⟨hcanonical, hdepth⟩ := hw
      have hns : ∀ e ∈ ns, e.2.Canonical ∧ e.2.depth ≤ m := fun e he =>
        ⟨membersCanonical_iff.mp hcanonical.2 e he, membersDepth_le_iff.mp (Nat.succ_le_succ_iff.mp hdepth) e he⟩
      dsimp only at h
      split at h
      · split at h
        · cases h
          exact hns
        · cases h
      · cases h
        exact hput ns hns
    | _ =>
      rw [hdata] at h
      cases h
  intro p hp
  rw [Doc.ofJson, ofMembers_eq] at hp
  simp only [Doc.parts, members, List.map_map, List.mem_map] at hp
  obtain ⟨e, he, rfl⟩ := hp
  exact ⟨e.2, rfl, hms e he⟩

theorem node_of_encode {m : Nat} {n : Node} (h : n.data.Storable m) :
    (⟨n.id, n.kind, n.subType, n.data.encode.sorted, n.position⟩ : WrittenNode).node = .ok n := by
  have hdecode : NodeData.decode n.kind .value (Doc.ofJson n.data.encode.sorted) = .ok n.data :=
    NodeData.decode_encode h
  obtain ⟨ms, hms⟩ : ∃ ms, ms = Keyed.ofList (sortedMembers (("type", .str n.subType) :: n.data.details)) := ⟨_, rfl⟩
  have htype : Keyed.get? ms "type" = some (.str n.subType) := by
    rw [hms, get?_ofList_sorted (by simpa using n.data.keys_nodup), Keyed.get?_cons, if_pos rfl]
    rfl
  have hsorted : n.data.encode.sorted = .obj ms := by
    rw [NodeData.encode_eq, sorted, hms]
    rfl
  rw [hsorted] at hdecode ⊢
  have htyped : WrittenNode.typedData ⟨n.id, n.kind, n.subType, .obj ms, n.position⟩ = .ok ms := by
    simp [typedData, htype, asString?]
  simp only [node, htyped]
  simp only [hdecode, bind, Except.bind]
  rfl

end WrittenNode

namespace Node
variable {m limit k : Nat} {n : Node}

def KeepsNumbers (n : Node) : Prop := ∀ x ∈ n.encode.numbers, x.reread? = some x

theorem KeepsNumbers.data (h : n.KeepsNumbers) : ∀ x ∈ n.data.encode.sorted.numbers, x.reread? = some x := by
  intro x hx
  exact h x (by simp [encode, numbers, membersNumbers, hx])

theorem KeepsNumbers.position (h : n.KeepsNumbers) {p : Position} (hp : n.position = some p) :
    (Number.float p.x).reread? = some (.float p.x) ∧ (Number.float p.y).reread? = some (.float p.y) := by
  refine ⟨h _ ?_, h _ ?_⟩
  · simp [encode, numbers, membersNumbers, hp]
  · simp [encode, numbers, membersNumbers, hp]

theorem position_docAt {p q : Position} (hx : float o (docAt limit (k + 1) (.num (.float p.x))) = .ok q.x)
    (hy : float o (docAt limit (k + 1) (.num (.float p.y))) = .ok q.y) (hk : k + 1 ≤ limit) :
    option (Position.mk <$> Fields.required "x" float <*> Fields.required "y" float).object o
      (docAt limit k (.obj [("x", .num (.float p.x)), ("y", .num (.float p.y))])) = .ok (some q) := by
  have hobject : (Position.mk <$> Fields.required "x" float <*> Fields.required "y" float).object o
      (docAt limit k (.obj [("x", .num (.float p.x)), ("y", .num (.float p.y))])) = .ok q :=
    Reads.object_docAt (.ap (.map (.found (fun _ => rfl) hx)) (.found (fun _ => rfl) hy)) hk (by simp)
  rw [docAt, if_neg (by omega)] at hobject ⊢
  exact congrArg (Except.map some) hobject

theorem reads_position (h : n.KeepsNumbers) (hk : k + 1 ≤ limit) {find : Check → Option Doc}
    (hfind : ∀ run, find ⟨"position", [], run⟩ =
      n.position.map fun p => docAt limit k (.obj [("x", .num (.float p.x)), ("y", .num (.float p.y))])) :
    (Fields.withDefault "position" none
      (option (Position.mk <$> Fields.required "x" float <*> Fields.required "y" float).object)).Reads
      o find n.position := by
  cases hposition : n.position with
  | none =>
    rw [hposition] at hfind
    exact .lacking hfind rfl
  | some p =>
    rw [hposition] at hfind
    obtain ⟨hx, hy⟩ := h.position hposition
    have hx' : float o (docAt limit (k + 1) (.num (.float p.x))) = .ok p.x := by
      rw [docAt, hx]
      rfl
    have hy' : float o (docAt limit (k + 1) (.num (.float p.y))) = .ok p.y := by
      rw [docAt, hy]
      rfl
    exact .found hfind (position_docAt hx' hy' hk)

theorem reads_encode (hcanonical : n.data.encode.sorted.Canonical) (h : n.KeepsNumbers) (hk : k + 2 ≤ limit)
    (hdepth : k + 1 + n.data.encode.sorted.depth ≤ limit) : WrittenNode.fields.object o (docAt limit k n.encode) =
      .ok ⟨n.id, n.kind, n.subType, n.data.encode.sorted, n.position⟩ := by
  have hdata : Decode.json o (docAt limit (k + 1) n.data.encode.sorted) = .ok n.data.encode.sorted :=
    json_docAt hcanonical hdepth h.data
  refine Reads.object_docAt (.ap (.ap (.ap (.ap (.map (.found (fun _ => rfl) rfl))
    (.found (fun _ => rfl) n.kind.choice_text)) (.found (fun _ => rfl) rfl)) (.found (fun _ => rfl) hdata))
    (reads_position h hk fun run => ?_)) (by omega) ?_
  · cases n.position <;> rfl
  · cases n.position <;> simp

theorem decode_encode (hdata : n.data.Storable m) (h : n.KeepsNumbers) (hk : k + 5 ≤ limit) (hm : k + m + 2 ≤ limit) :
    Node.decode o (docAt limit k n.encode) = .ok n := by
  have hdepth : n.data.encode.sorted.depth ≤ max 4 (m + 1) :=
    (depth_sorted_le _).trans (NodeData.depth_encode_le hdata)
  have hwritten : WrittenNode.fields.object o (docAt limit k n.encode) =
      .ok ⟨n.id, n.kind, n.subType, n.data.encode.sorted, n.position⟩ :=
    reads_encode (sorted_canonical _) h (by omega) (by omega)
  simp only [Node.decode, hwritten, bind, Except.bind, WrittenNode.node_of_encode hdata]
  rfl

/-- A sample that stands too deep makes its node unreadable. -/
theorem decode_encode_error {webhookId : String} {listening : Bool} {j : Json}
    (hdata : n.data = .trigger (.webhook webhookId listening (some j))) (hj : j.Canonical) (hk : k + 1 ≤ limit)
    (hdepth : limit < k + j.depth + 2) : ∃ e, Node.decode o (docAt limit k n.encode) = .error e := by
  have hdeep : j.depth + 1 ≤ n.data.encode.sorted.depth := by
    rw [NodeData.encode_eq, sorted, depth, Nat.succ_le_succ_iff]
    refine membersDepth_le_iff.mp le_rfl ("lastSample", j) (Keyed.mem_of_get? ?_)
    rw [get?_ofList_sorted (by simpa using n.data.keys_nodup), hdata]
    simp [NodeData.details, Trigger.details, Keyed.get?_cons, ofOption, sorted_of_canonical j hj]
  have hjson : Decode.json o (docAt limit (k + 1) n.data.encode.sorted) = .error .malformed :=
    json_docAt_error (sorted_canonical _) hk (by omega)
  obtain ⟨e, herror⟩ : ∃ e, WrittenNode.fields.object o (docAt limit k n.encode) = .error e := by
    rw [encode, docAt, if_neg (by omega), memberDocs_eq]
    exact WrittenNode.plain_fields.object_error (build_ap_error (Reads.build_ap_error
      (.ap (.ap (.map (.found (fun _ => rfl) rfl)) (.found (fun _ => rfl) n.kind.choice_text))
        (.found (fun _ => rfl) rfl)) hjson))
  simp only [Node.decode, herror]
  exact ⟨e, rfl⟩

theorem storable_of_decode {d : Doc} (hd : d.Fits (m + 2)) (h : Node.decode o d = .ok n) : n.data.Storable m := by
  obtain ⟨w, hw, h⟩ := bind_eq_ok.mp h
  have hdata := WrittenNode.yields_data.object o d (Doc.parts_fit hd) w hw
  cases hnode : w.node with
  | error e =>
    rw [hnode] at h
    cases h
  | ok n' =>
    rw [hnode] at h
    cases h
    unfold WrittenNode.node at hnode
    cases htyped : w.typedData with
    | error e =>
      rw [htyped] at hnode
      cases hnode
    | ok ms =>
      rw [htyped] at hnode
      dsimp only [bind, Except.bind] at hnode
      split at hnode
      · rename_i data hdecode
        cases hnode
        exact NodeData.storable_of_decode (WrittenNode.typedData_isRead hdata htyped) hdecode
      · cases hnode

end Node

namespace Edge

theorem reads_given {name : String} {value : Option String} {find : Check → Option Doc}
    (h : ∀ run, find ⟨name, [], run⟩ = value.map .str) :
    (Fields.withDefault name none (option string)).Reads o find value := by
  cases value with
  | none => exact .lacking h rfl
  | some s => exact .found h rfl

theorem decode_encode (e : Edge) {limit k : Nat} (hk : k + 1 ≤ limit) :
    Edge.decode o (docAt limit k e.encode) = .ok e := by
  have hkeys : (List.map (·.1) (given "id" e.id ++ [("source", Json.str e.source), ("target", .str e.target)] ++
      given "sourceHandle" e.sourceHandle)).Nodup := by
    cases e.id <;> cases e.sourceHandle <;> simp [given]
  refine Reads.object_docAt (.ap (.ap (.ap (.map (reads_given fun _ => ?_))
    (.found (d := .str e.source) (fun _ => ?_) rfl)) (.found (d := .str e.target) (fun _ => ?_) rfl))
    (reads_given fun _ => ?_)) hk hkeys
  all_goals cases e.id <;> cases e.sourceHandle <;> rfl

end Edge

/-- Three containers stand around a sample: the list of nodes, its node and the data of that. -/
def sampleLimit : Nat := depthLimit - 3

section Text
variable {nodes : List Node}

theorem nodes_of_text {s : String} (h : Decode.ofText (Decode.list Node.decode) s = .ok nodes) :
    ∀ n ∈ nodes, n.data.Storable sampleLimit := by
  intro n hn
  obtain ⟨d, hd, hdecode⟩ := mem_of_ofText h hn
  exact Node.storable_of_decode hd hdecode

theorem nodes_text (h : ∀ n ∈ nodes, n.data.Storable sampleLimit ∧ n.KeepsNumbers) :
    Decode.ofText (Decode.list Node.decode) (Json.arr (nodes.map Node.encode)).text = .ok nodes :=
  ofText_list fun n hn => Node.decode_encode (h n hn).1 (h n hn).2 (by decide) (by decide)

theorem edges_text (edges : List Edge) :
    Decode.ofText (Decode.list Edge.decode) (Json.arr (edges.map Edge.encode)).text = .ok edges :=
  ofText_list fun e _ => e.decode_encode (by decide)

/-- With one sample that nests too deep the whole text is lost. -/
theorem nodes_text_error {n : Node} (hn : n ∈ nodes) {webhookId : String} {listening : Bool} {j : Json}
    (hdata : n.data = .trigger (.webhook webhookId listening (some j))) (hj : j.Canonical)
    (hdepth : sampleLimit < j.depth) :
    ∃ e, Decode.ofText (Decode.list Node.decode) (Json.arr (nodes.map Node.encode)).text = .error e := by
  have hdeep : depthLimit < 1 + j.depth + 2 := by
    rw [sampleLimit] at hdepth
    omega
  obtain ⟨e, herror⟩ : ∃ e, Node.decode .text (docAt depthLimit 1 n.encode) = .error e :=
    Node.decode_encode_error hdata hj (by decide) hdeep
  exact ofText_list_error hn herror

end Text

end Outreach
