import Outreach.Json.Bytes
import Outreach.Proofs.Json.Shape
import Outreach.Proofs.Json.Tokens
import Outreach.Proofs.Text.Bytes

/-! Texts of values read back. A value is read from its text with each number as it is read alone, provided
that no container stands deeper than the limit; otherwise there is no value. -/
namespace Outreach.Json

variable {limit : Nat}

mutual

def docAt (limit n : Nat) : Json → Doc
  | .null => .null
  | .bool b => .bool b
  | .num x => (x.reread?.map Doc.num).getD .unreadable
  | .str s => .str s
  | .arr xs => if n + 1 > limit then .unreadable else .arr (itemDocs limit (n + 1) xs)
  | .obj ms => if n + 1 > limit then .unreadable else .obj (memberDocs limit (n + 1) ms)

def itemDocs (limit n : Nat) : List Json → List Doc
  | [] => []
  | j :: r => docAt limit n j :: itemDocs limit n r

def memberDocs (limit n : Nat) : List (String × Json) → List (Option String × Doc)
  | [] => []
  | (k, j) :: r => (some k, docAt limit n j) :: memberDocs limit n r

end

namespace Reading

def after (st : List Frame) (d : Doc) : Reading := push ⟨st, .value, .broken⟩ d

theorem push_eq_after (st : List Frame) (e : Expected) (res d : Doc) : push ⟨st, e, res⟩ d = after st d := by
  cases st with
  | nil => rfl
  | cons f st => cases f <;> rfl

theorem run_cons {r r' : Reading} {t : Token} (hr : r.expected ≠ .nothing) (hs : r.step? limit t = some r')
    (ts : List Token) : run limit r (t :: ts) = run limit r' ts := by
  rw [run, if_neg hr, hs]

def OpensValue (e : Expected) : Prop := e = .value ∨ e = .valueOrClose

theorem run_scalar {t : Token} {d : Doc} (hd : scalar? t = some d) {e : Expected} (he : OpensValue e)
    (st : List Frame) (res : Doc) (ts : List Token) :
    run limit ⟨st, e, res⟩ (t :: ts) = run limit (after st d) ts := by
  obtain rfl | rfl := he
  · refine run_cons (by simp) ?_ ts
    rw [← push_eq_after st .value res]
    cases t <;> simp_all [step?, scalar?]
  · refine run_cons (by simp) ?_ ts
    rw [← push_eq_after st .valueOrClose res]
    cases t <;> simp_all [step?, scalar?]

def closed (limit : Nat) (st : List Frame) (d : Doc) : Doc := if st.length + 1 > limit then .unreadable else d

theorem run_closeList {e : Expected} (he : e = .valueOrClose ∨ e = .commaOrClose) (done : List Doc) (st : List Frame)
    (res : Doc) (ts : List Token) : run limit ⟨.items done :: st, e, res⟩ (.closeList :: ts) =
      run limit (after st (closed limit st (.arr done.reverse))) ts := by
  rw [← push_eq_after st e res]
  obtain rfl | rfl := he
  · exact run_cons (by simp) rfl ts
  · exact run_cons (by simp) rfl ts

theorem run_closeObject {e : Expected} (he : e = .keyOrClose ∨ e = .commaOrClose)
    (done : List (Option String × Doc)) (key : Option (Option String)) (st : List Frame) (res : Doc)
    (ts : List Token) : run limit ⟨.members done key :: st, e, res⟩ (.closeObject :: ts) =
      run limit (after st (closed limit st (.obj done.reverse))) ts := by
  rw [← push_eq_after st e res]
  obtain rfl | rfl := he
  · exact run_cons (by simp) rfl ts
  · exact run_cons (by simp) rfl ts

theorem run_key {e : Expected} (he : e = .keyOrClose ∨ e = .key) (k : String) (done : List (Option String × Doc))
    (key : Option (Option String)) (st : List Frame) (res : Doc) (ts : List Token) :
    run limit ⟨.members done key :: st, e, res⟩ (.str (some k) :: .colon :: ts) =
      run limit ⟨.members done (some (some k)) :: st, .value, res⟩ ts := by
  have hkey : (⟨.members done key :: st, e, res⟩ : Reading).step? limit (.str (some k)) =
      some ⟨.members done (some (some k)) :: st, .colon, res⟩ := by
    obtain rfl | rfl := he <;> rfl
  rw [run_cons (by obtain rfl | rfl := he <;> simp) hkey]
  exact run_cons (by simp) rfl ts

mutual

/-- The tokens of a value put its document into the innermost container. -/
theorem run_tokensOf (j : Json) {e : Expected} (he : OpensValue e) (st : List Frame) (res : Doc) (ts : List Token) :
    run limit ⟨st, e, res⟩ (tokensOf j ++ ts) = run limit (after st (docAt limit st.length j)) ts := by
  match j with
  | .null => exact run_scalar rfl he st res ts
  | .bool b => exact run_scalar rfl he st res ts
  | .num n =>
    refine run_scalar ?_ he st res ts
    cases h : n.reread? <;> simp [scalar?, docAt, h]
  | .str s => exact run_scalar rfl he st res ts
  | .arr xs =>
    have hopen : (⟨st, e, res⟩ : Reading).step? limit .openList = some ⟨.items [] :: st, .valueOrClose, res⟩ := by
      obtain rfl | rfl := he <;> rfl
    rw [tokensOf, List.cons_append, List.append_assoc, run_cons (by obtain rfl | rfl := he <;> simp) hopen]
    by_cases hx : xs = []
    · rw [hx]
      exact run_closeList (.inl rfl) [] st res ts
    · exact run_itemTokens xs hx (.inr rfl) [] st res ts
  | .obj ms =>
    have hopen : (⟨st, e, res⟩ : Reading).step? limit .openObject = some ⟨.members [] none :: st, .keyOrClose, res⟩ := by
      obtain rfl | rfl := he <;> rfl
    rw [tokensOf, List.cons_append, List.append_assoc, run_cons (by obtain rfl | rfl := he <;> simp) hopen]
    by_cases hm : ms = []
    · rw [hm]
      exact run_closeObject (.inl rfl) [] none st res ts
    · exact run_memberTokens ms hm (.inl rfl) [] none st res ts

theorem run_itemTokens (xs : List Json) (hx : xs ≠ []) {e : Expected} (he : OpensValue e) (done : List Doc)
    (st : List Frame) (res : Doc) (ts : List Token) :
    run limit ⟨.items done :: st, e, res⟩ (itemTokens xs ++ ([.closeList] ++ ts)) =
      run limit (after st (closed limit st (.arr (done.reverse ++ itemDocs limit (st.length + 1) xs)))) ts := by
  match xs with
  | [] => exact absurd rfl hx
  | [j] =>
    rw [itemTokens, run_tokensOf j he]
    refine (run_closeList (.inr rfl) _ st _ ts).trans ?_
    simp [itemDocs]
  | j :: k :: r =>
    rw [itemTokens, List.append_assoc, run_tokensOf j he, List.cons_append]
    · refine (run_cons (by simp [after, push]) rfl _).trans ?_
      refine (run_itemTokens (k :: r) (by simp) (.inl rfl) _ st _ ts).trans ?_
      simp [itemDocs]
    · simp

theorem run_memberTokens (ms : List (String × Json)) (hm : ms ≠ []) {e : Expected}
    (he : e = .keyOrClose ∨ e = .key) (done : List (Option String × Doc)) (key : Option (Option String))
    (st : List Frame) (res : Doc) (ts : List Token) :
    run limit ⟨.members done key :: st, e, res⟩ (memberTokens ms ++ ([.closeObject] ++ ts)) =
      run limit (after st (closed limit st (.obj (done.reverse ++ memberDocs limit (st.length + 1) ms)))) ts := by
  match ms with
  | [] => exact absurd rfl hm
  | [(k, j)] =>
    rw [memberTokens, List.cons_append, List.cons_append, run_key he, run_tokensOf j (.inl rfl)]
    refine (run_closeObject (.inr rfl) _ _ st _ ts).trans ?_
    simp [memberDocs]
  | (k, j) :: m :: r =>
    rw [memberTokens, List.cons_append, List.cons_append, List.append_assoc, run_key he, run_tokensOf j (.inl rfl),
      List.cons_append]
    · refine (run_cons (by simp [after, push]) rfl _).trans ?_
      refine (run_memberTokens (m :: r) (by simp) (.inr rfl) _ _ st _ ts).trans ?_
      simp [memberDocs]
    · simp

end

end Reading

theorem readWithin_text (j : Json) : readWithin limit j.text = (docAt limit 0 j, true) := by
  have hrun := @Reading.run_tokensOf limit j _ (.inl rfl) [] .broken []
  rw [List.append_nil] at hrun
  rw [readWithin, Text.chars_eq, text, String.toList_ofList, tokens_chars, Reading.start, hrun]
  rfl

theorem parseBytes?_eq_some {bs : List UInt8} {j : Json} :
    parseBytes? bs = some j ↔ ∃ s, Text.bytes s = bs ∧ parse? s = some j := by
  simp only [parseBytes?, Option.bind_eq_some_iff, Text.ofBytes?_eq_some]

mutual

theorem value?_docAt (j : Json) (hj : j.Canonical) {n : Nat} (hn : n ≤ limit) :
    (docAt limit n j).value? = if n + j.depth ≤ limit then j.reread? else none := by
  match j with
  | .null | .bool _ | .str _ => simp [docAt, Doc.value?, depth, reread?, hn]
  | .num x => cases h : x.reread? <;> simp [docAt, Doc.value?, depth, reread?, hn, h]
  | .arr xs =>
    by_cases hlt : n + 1 > limit
    · rw [docAt, if_pos hlt, Doc.value?, depth, if_neg (by omega)]
    · have hxs := itemValues?_itemDocs xs hj (n := n + 1) (by omega)
      have hdepth : n + (itemsDepth xs + 1) = n + 1 + itemsDepth xs := by omega
      simp only [docAt, if_neg hlt, Doc.value?, hxs, depth, reread?, hdepth]
      split <;> rfl
  | .obj ms =>
    by_cases hlt : n + 1 > limit
    · rw [docAt, if_pos hlt, Doc.value?, depth, if_neg (by omega)]
    · obtain ⟨hasc, hms⟩ := hj
      have hvs := memberValues?_memberDocs ms hms (n := n + 1) (by omega)
      have hdepth : n + (membersDepth ms + 1) = n + 1 + membersDepth ms := by omega
      simp only [docAt, if_neg hlt, Doc.value?, hvs, depth, reread?, hdepth]
      split
      · cases h : rereadMembers? ms with
        | none => rfl
        | some vs =>
          have hvs : Keyed.Ascending vs := by rwa [Keyed.Ascending, rereadMembers?_keys h]
          rw [Option.map_some, Option.map_some, Keyed.ofList_of_ascending hvs]
      · rfl

theorem itemValues?_itemDocs (xs : List Json) (hxs : ItemsCanonical xs) {n : Nat} (hn : n ≤ limit) :
    Doc.itemValues? (itemDocs limit n xs) = if n + itemsDepth xs ≤ limit then rereadItems? xs else none := by
  match xs with
  | [] => simp [itemDocs, Doc.itemValues?, itemsDepth, rereadItems?, hn]
  | j :: r =>
    have hj := value?_docAt j hxs.1 hn
    have hr := itemValues?_itemDocs r hxs.2 hn
    have hmax : n + max j.depth (itemsDepth r) ≤ limit ↔ n + j.depth ≤ limit ∧ n + itemsDepth r ≤ limit := by omega
    simp only [itemDocs, Doc.itemValues?, itemsDepth, rereadItems?, hj, hr, hmax]
    by_cases h₁ : n + j.depth ≤ limit <;> by_cases h₂ : n + itemsDepth r ≤ limit <;> simp [h₁, h₂]

theorem memberValues?_memberDocs (ms : List (String × Json)) (hms : MembersCanonical ms) {n : Nat} (hn : n ≤ limit) :
    Doc.memberValues? (memberDocs limit n ms) =
      if n + membersDepth ms ≤ limit then rereadMembers? ms else none := by
  match ms with
  | [] => simp [memberDocs, Doc.memberValues?, membersDepth, rereadMembers?, hn]
  | (k, j) :: r =>
    have hj := value?_docAt j hms.1 hn
    have hr := memberValues?_memberDocs r hms.2 hn
    have hmax : n + max j.depth (membersDepth r) ≤ limit ↔ n + j.depth ≤ limit ∧ n + membersDepth r ≤ limit := by omega
    simp only [memberDocs, Doc.memberValues?, membersDepth, rereadMembers?, hj, hr, hmax]
    by_cases h₁ : n + j.depth ≤ limit <;> by_cases h₂ : n + membersDepth r ≤ limit <;> simp [h₁, h₂]

end

def reading? (j : Json) : Option Json := if j.depth ≤ depthLimit then j.reread? else none

theorem reading?_isSome {j : Json} :
    j.reading?.isSome = true ↔ j.depth ≤ depthLimit ∧ ∀ n ∈ j.numbers, n.reread?.isSome = true := by
  rw [reading?, ← reread?_isSome]
  split <;> simp_all

theorem reading?_eq_self {j : Json} :
    j.reading? = some j ↔ j.depth ≤ depthLimit ∧ ∀ n ∈ j.numbers, n.reread? = some n := by
  rw [reading?, ← reread?_eq_self]
  split <;> simp_all

theorem value?_text {j : Json} (hj : j.Canonical) : (read j.text).1.value? = j.reading? := by
  rw [read, readWithin_text, value?_docAt j hj (Nat.zero_le _), Nat.zero_add, reading?]

/-- The text of a value is read as the value, unless it nests too deep. -/
theorem parse?_text {j : Json} (hj : j.Canonical) : parse? j.text = j.reading? := by
  rw [parse?, parseWithin?, readWithin_text, ← value?_text hj, read, readWithin_text]

theorem ofText_text {j : Json} (hj : j.Canonical) : Decode.ofText Decode.json j.text =
    match j.reading? with
    | some v => .ok v
    | none => .error .malformed := by
  have hended : (read j.text).2 = true := by rw [read, readWithin_text]
  rw [← value?_text hj]
  simp only [Decode.ofText, Decode.json, hended]
  cases (read j.text).1.value? <;> rfl

mutual

theorem value?_canonical (d : Doc) {j : Json} (h : d.value? = some j) : j.Canonical := by
  match d with
  | .null | .bool _ | .num _ | .str _ =>
    simp only [Doc.value?, Option.some.injEq] at h
    rw [← h]
    trivial
  | .arr xs =>
    simp only [Doc.value?, Option.map_eq_some_iff] at h
    obtain ⟨vs, hvs, rfl⟩ := h
    exact itemValues?_canonical xs hvs
  | .obj ms =>
    simp only [Doc.value?, Option.map_eq_some_iff] at h
    obtain ⟨vs, hvs, rfl⟩ := h
    refine ⟨Keyed.ofList_ascending vs, membersCanonical_iff.mpr fun m hm => ?_⟩
    exact membersCanonical_iff.mp (memberValues?_canonical ms hvs) m (Keyed.mem_ofList hm)
  | .unreadable | .broken => simp [Doc.value?] at h

theorem itemValues?_canonical (ds : List Doc) {vs : List Json} (h : Doc.itemValues? ds = some vs) :
    ItemsCanonical vs := by
  match ds with
  | [] =>
    simp only [Doc.itemValues?, Option.some.injEq] at h
    rw [← h]
    trivial
  | d :: r =>
    simp only [Doc.itemValues?, Option.bind_eq_bind, Option.bind_eq_some_iff, Option.pure_def, Option.some.injEq] at h
    obtain ⟨v, hv, ws, hws, rfl⟩ := h
    exact ⟨value?_canonical d hv, itemValues?_canonical r hws⟩

theorem memberValues?_canonical (ms : List (Option String × Doc)) {vs : List (String × Json)}
    (h : Doc.memberValues? ms = some vs) : MembersCanonical vs := by
  match ms with
  | [] =>
    simp only [Doc.memberValues?, Option.some.injEq] at h
    rw [← h]
    trivial
  | (k, d) :: r =>
    simp only [Doc.memberValues?, Option.bind_eq_bind, Option.bind_eq_some_iff, Option.pure_def, Option.some.injEq] at h
    obtain ⟨k, -, v, hv, ws, hws, rfl⟩ := h
    exact ⟨value?_canonical d hv, memberValues?_canonical r hws⟩

end

mutual

theorem value?_ofJson (j : Json) : (Doc.ofJson j).value? = some j.sorted := by
  match j with
  | .null | .bool _ | .num _ | .str _ => rfl
  | .arr xs => rw [Doc.ofJson, Doc.value?, itemValues?_ofItems xs, Option.map_some, sorted]
  | .obj ms => rw [Doc.ofJson, Doc.value?, memberValues?_ofMembers ms, Option.map_some, sorted]

theorem itemValues?_ofItems (xs : List Json) : Doc.itemValues? (Doc.ofItems xs) = some (sortedItems xs) := by
  match xs with
  | [] => rfl
  | j :: r => simp [Doc.ofItems, Doc.itemValues?, sortedItems, value?_ofJson j, itemValues?_ofItems r]

theorem memberValues?_ofMembers (ms : List (String × Json)) :
    Doc.memberValues? (Doc.ofMembers ms) = some (sortedMembers ms) := by
  match ms with
  | [] => rfl
  | (k, j) :: r => simp [Doc.ofMembers, Doc.memberValues?, sortedMembers, value?_ofJson j, memberValues?_ofMembers r]

end

theorem parse?_canonical {s : String} {j : Json} (h : parse? s = some j) : j.Canonical := by
  simp only [parse?, parseWithin?] at h
  split at h
  · exact value?_canonical _ h
  · simp at h

theorem ofText_canonical {s : String} {j : Json} (h : Decode.ofText Decode.json s = .ok j) : j.Canonical := by
  simp only [Decode.ofText, Decode.json] at h
  cases hv : (read s).1.value? with
  | none => simp [hv, bind, Except.bind] at h
  | some v =>
    cases hended : (read s).2 with
    | false => simp [hv, hended, bind, Except.bind] at h
    | true =>
      simp [hv, hended, bind, Except.bind, pure, Except.pure] at h
      exact h ▸ value?_canonical _ hv

end Outreach.Json
