import Outreach.Proofs.Json.Reading

/-! Indented texts. They have the tokens of the plain text, so that whatever is read from the one is read from the other. -/
namespace Outreach.Json
open Text

variable {limit : Nat} {rest : List Char}

theorem gives_blank {cs : List Char} (h : ∀ c ∈ cs, c = ' ' ∨ c = '\n') : Gives cs [] rest := by
  induction cs with
  | nil => exact gives_nil
  | cons c cs ih =>
    obtain ⟨hc, hcs⟩ := List.forall_mem_cons.mp h
    have hone : Gives [c] [] (cs ++ rest) := by
      refine gives_of_succ (by simp) fun fuel _ => ?_
      obtain rfl | rfl := hc <;> simp [tokens]
    exact Gives.append hone (ih hcs)

theorem gives_indent (depth : Nat) : Gives (indent depth) [] rest := by
  refine gives_blank fun c hc => ?_
  obtain rfl | hc := List.mem_cons.mp hc
  · exact .inr rfl
  · exact .inl (List.eq_of_mem_replicate hc)

theorem stops_indent (depth : Nat) : Stops (indent depth ++ rest) := stops_cons (by decide) _

def furtherTokens : List Json → List Token
  | [] => []
  | j :: r => .comma :: (tokensOf j ++ furtherTokens r)

def furtherMemberTokens : List (String × Json) → List Token
  | [] => []
  | (k, j) :: r => .comma :: .str (some k) :: .colon :: (tokensOf j ++ furtherMemberTokens r)

theorem itemTokens_cons (j : Json) (r : List Json) : itemTokens (j :: r) = tokensOf j ++ furtherTokens r := by
  induction r generalizing j with
  | nil => rw [itemTokens, furtherTokens, List.append_nil]
  | cons k r ih =>
    rw [itemTokens, ih, furtherTokens]
    exact List.cons_ne_nil _ _

theorem memberTokens_cons (k : String) (j : Json) (r : List (String × Json)) :
    memberTokens ((k, j) :: r) = .str (some k) :: .colon :: (tokensOf j ++ furtherMemberTokens r) := by
  induction r generalizing k j with
  | nil => rw [memberTokens, furtherMemberTokens, List.append_nil]
  | cons m r ih =>
    rw [memberTokens, ih, furtherMemberTokens]
    exact List.cons_ne_nil _ _

theorem stops_prettyItems (depth : Nat) (r : List Json) {rest : List Char} (hr : Stops rest) :
    Stops (prettyItems depth r ++ rest) := by
  cases r with
  | nil => exact hr
  | cons j r => exact stops_cons (by decide) _

theorem stops_prettyMembers (depth : Nat) (r : List (String × Json)) {rest : List Char} (hr : Stops rest) :
    Stops (prettyMembers depth r ++ rest) := by
  cases r with
  | nil => exact hr
  | cons m r => exact stops_cons (by decide) _

theorem gives_key (k : String) {cs : List Char} {ts : List Token} (h : Gives cs ts rest) :
    Gives (quoted k ++ ':' :: ' ' :: cs) (.str (some k) :: .colon :: ts) rest := by
  have hblank : Gives [' '] [] (cs ++ rest) := gives_blank (by simp)
  exact Gives.append (gives_quoted k) (Gives.cons (gives_mark (by simp [marks])) (Gives.append hblank h))

mutual

theorem gives_pretty (depth : Nat) (j : Json) {rest : List Char} (hr : Stops rest) :
    Gives (prettyChars depth j) (tokensOf j) rest := by
  match j with
  | .null | .bool _ | .num _ | .str _ => exact gives_chars _ hr
  | .arr [] => exact gives_chars (.arr []) hr
  | .obj [] => exact gives_chars (.obj []) hr
  | .arr (j :: r) =>
    have hstops : Stops (indent depth ++ ([']'] ++ rest)) := stops_indent depth
    have hfirst := gives_pretty (depth + 1) j (stops_prettyItems (depth + 1) r hstops)
    have hitems := (gives_indent (depth + 1)).append hfirst
    have hall := (hitems.append (gives_prettyItems (depth + 1) r hstops)).append (gives_indent depth)
    have hclosed := Gives.cons (c := '[') (t := .openList) (gives_mark (by simp [marks]))
      (hall.append (gives_mark (t := .closeList) (by simp [marks])))
    simpa only [prettyChars, tokensOf, itemTokens_cons, List.nil_append, List.append_nil] using hclosed
  | .obj ((k, j) :: r) =>
    have hstops : Stops (indent depth ++ (['\x7d'] ++ rest)) := stops_indent depth
    have hfirst := gives_key k (gives_pretty (depth + 1) j (stops_prettyMembers (depth + 1) r hstops))
    have hmembers := (gives_indent (depth + 1)).append hfirst
    have hall := (hmembers.append (gives_prettyMembers (depth + 1) r hstops)).append (gives_indent depth)
    have hclosed := Gives.cons (c := '\x7b') (t := .openObject) (gives_mark (by simp [marks]))
      (hall.append (gives_mark (t := .closeObject) (by simp [marks])))
    simpa only [prettyChars, tokensOf, memberTokens_cons, List.nil_append, List.append_nil, List.append_assoc,
      List.cons_append] using hclosed

theorem gives_prettyItems (depth : Nat) (r : List Json) {rest : List Char} (hr : Stops rest) :
    Gives (prettyItems depth r) (furtherTokens r) rest := by
  match r with
  | [] => exact gives_nil
  | j :: r =>
    have hfirst := (gives_indent depth).append (gives_pretty depth j (stops_prettyItems depth r hr))
    exact Gives.cons (gives_mark (by simp [marks])) (hfirst.append (gives_prettyItems depth r hr))

theorem gives_prettyMembers (depth : Nat) (r : List (String × Json)) {rest : List Char} (hr : Stops rest) :
    Gives (prettyMembers depth r) (furtherMemberTokens r) rest := by
  match r with
  | [] => exact gives_nil
  | (k, j) :: r =>
    have hfirst := gives_key k (gives_pretty depth j (stops_prettyMembers depth r hr))
    have hone := (gives_indent depth).append hfirst
    have hall := Gives.cons (c := ',') (t := .comma) (gives_mark (by simp [marks]))
      (hone.append (gives_prettyMembers depth r hr))
    simpa only [prettyMembers, furtherMemberTokens, List.nil_append, List.append_assoc, List.cons_append] using hall

end

theorem readWithin_pretty (j : Json) : readWithin limit j.pretty = readWithin limit j.text := by
  obtain ⟨left, -, h⟩ := gives_pretty 0 j stops_nil (j.prettyChars 0).length (by simp)
  have hnil : tokens left [] = [] := by cases left <;> rfl
  rw [List.append_nil, hnil, List.append_nil] at h
  rw [readWithin, readWithin, Text.chars_eq, Text.chars_eq, pretty, text, String.toList_ofList, String.toList_ofList, h,
    tokens_chars]

end Outreach.Json
