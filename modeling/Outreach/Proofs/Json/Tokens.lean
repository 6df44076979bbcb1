import Outreach.Proofs.Json.Numeral

/-! The text of a value and its tokens: strings are read back as they were, and so is everything that the
writer puts between them. -/
namespace Outreach.Json
open Text

variable {rest : List Char}

theorem hexValue?_hexDigit : ∀ n < 16, hexValue? (hexDigit n) = some n := by decide

theorem hex4?_low {n : Nat} (h : n < 256) : hex4? '0' '0' (hexDigit (n / 16)) (hexDigit (n % 16)) = some n := by
  have hz : hexValue? '0' = some 0 := rfl
  rw [hex4?, hz, hexValue?_hexDigit _ (by omega), hexValue?_hexDigit _ (by omega)]
  simp only [Option.bind_eq_bind, Option.bind_some, Option.pure_def, Option.some.injEq]
  omega

/-- A character is read as itself, in whatever way it was written. -/
theorem scanString_escaped (c : Char) (acc : List Char) (rest : List Char) :
    scanString acc true (escaped c ++ rest) = scanString (c :: acc) true rest := by
  unfold escaped
  by_cases h₁ : c = '"'
  · subst h₁
    simp [scanString]
  by_cases h₂ : c = '\\'
  · subst h₂
    simp [scanString]
  by_cases h₃ : c = '\n'
  · subst h₃
    simp [scanString]
  by_cases h₄ : c = '\r'
  · subst h₄
    simp [scanString]
  by_cases h₅ : c = '\t'
  · subst h₅
    simp [scanString]
  by_cases h₆ : c.toNat = 8
  · obtain rfl : c = Char.ofNat 8 := by rw [← h₆, Char.ofNat_toNat]
    simp [scanString]
  by_cases h₇ : c.toNat = 12
  · obtain rfl : c = Char.ofNat 12 := by rw [← h₇, Char.ofNat_toNat]
    simp [scanString]
  by_cases h₈ : c.toNat < 32
  · have hhex := hex4?_low (n := c.toNat) (by omega)
    have hlow : c.toNat < 0xD800 := by omega
    simp [h₁, h₂, h₃, h₄, h₅, h₆, h₇, h₈, scanString, hhex, hlow]
  · simp [h₁, h₂, h₃, h₄, h₅, h₆, h₇, h₈, scanString]

theorem scanString_flatMap (cs acc rest : List Char) :
    scanString acc true (cs.flatMap escaped ++ '"' :: rest) =
      some (some (String.ofList (acc.reverse ++ cs)), rest) := by
  induction cs generalizing acc with
  | nil => simp [scanString]
  | cons c cs ih => rw [List.flatMap_cons, List.append_assoc, scanString_escaped, ih]; simp

mutual

def tokensOf : Json → List Token
  | .null => [.null]
  | .bool b => [.bool b]
  | .num n => [.num n.reread?]
  | .str s => [.str (some s)]
  | .arr xs => .openList :: (itemTokens xs ++ [.closeList])
  | .obj ms => .openObject :: (memberTokens ms ++ [.closeObject])

def itemTokens : List Json → List Token
  | [] => []
  | [j] => tokensOf j
  | j :: r => tokensOf j ++ .comma :: itemTokens r

def memberTokens : List (String × Json) → List Token
  | [] => []
  | [(k, j)] => .str (some k) :: .colon :: tokensOf j
  | (k, j) :: r => .str (some k) :: .colon :: (tokensOf j ++ .comma :: memberTokens r)

end

/-- The characters `cs` give the tokens `ts` before `rest`, with fuel left for the latter. -/
def Gives (cs : List Char) (ts : List Token) (rest : List Char) : Prop :=
  ∀ fuel, (cs ++ rest).length ≤ fuel →
    ∃ left, rest.length ≤ left ∧ tokens fuel (cs ++ rest) = ts ++ tokens left rest

theorem Gives.append {a b : List Char} {ts us : List Token} (ha : Gives a ts (b ++ rest)) (hb : Gives b us rest) :
    Gives (a ++ b) (ts ++ us) rest := by
  intro fuel hf
  rw [List.append_assoc] at hf
  obtain ⟨left, hl, heq⟩ := ha fuel hf
  obtain ⟨left', hl', heq'⟩ := hb left hl
  exact ⟨left', hl', by rw [List.append_assoc, heq, heq', List.append_assoc]⟩

theorem Gives.cons {c : Char} {t : Token} {cs : List Char} {ts : List Token} (hc : Gives [c] [t] (cs ++ rest))
    (h : Gives cs ts rest) : Gives (c :: cs) (t :: ts) rest :=
  Gives.append hc h

theorem gives_nil : Gives [] [] rest := fun fuel hf => ⟨fuel, hf, rfl⟩

theorem gives_of_succ {cs : List Char} {ts : List Token} (hne : cs ≠ [])
    (h : ∀ fuel, rest.length ≤ fuel → tokens (fuel + 1) (cs ++ rest) = ts ++ tokens fuel rest) :
    Gives cs ts rest := by
  intro fuel hf
  have hlen := List.length_pos_iff.mpr hne
  rw [List.length_append] at hf
  obtain ⟨fuel, rfl⟩ : ∃ n, fuel = n + 1 := ⟨fuel - 1, by omega⟩
  exact ⟨fuel, by omega, h fuel (by omega)⟩

def marks : List (Char × Token) :=
  [('[', .openList), (']', .closeList), ('\x7b', .openObject), ('\x7d', .closeObject), (',', .comma), (':', .colon)]

theorem gives_mark {c : Char} {t : Token} (h : (c, t) ∈ marks) : Gives [c] [t] rest := by
  refine gives_of_succ (by simp) fun fuel _ => ?_
  simp only [marks, List.mem_cons, Prod.mk.injEq, List.not_mem_nil, or_false] at h
  obtain ⟨rfl, rfl⟩ | ⟨rfl, rfl⟩ | ⟨rfl, rfl⟩ | ⟨rfl, rfl⟩ | ⟨rfl, rfl⟩ | ⟨rfl, rfl⟩ := h <;> simp [tokens]

def literals : List (String × Token) := [("null", .null), ("true", .bool true), ("false", .bool false)]

theorem after?_append (a rest : List Char) : after? a (a ++ rest) = some rest := by simp [after?]

theorem gives_literal {w : String} {t : Token} (h : (w, t) ∈ literals) : Gives w.toList [t] rest := by
  simp only [literals, List.mem_cons, Prod.mk.injEq, List.not_mem_nil, or_false] at h
  obtain ⟨rfl, rfl⟩ | ⟨rfl, rfl⟩ | ⟨rfl, rfl⟩ := h
  · have hrest := after?_append "ull".toList rest
    exact gives_of_succ (by simp) fun _ _ => by simp_all [tokens]
  · have hrest := after?_append "rue".toList rest
    exact gives_of_succ (by simp) fun _ _ => by simp_all [tokens]
  · have hrest := after?_append "alse".toList rest
    exact gives_of_succ (by simp) fun _ _ => by simp_all [tokens]

theorem gives_quoted (s : String) : Gives (quoted s) [.str (some s)] rest := by
  have hscan := scanString_flatMap s.toList [] rest
  exact gives_of_succ (by simp [quoted]) fun _ _ => by simp [quoted, tokens, hscan]

theorem gives_number (n : Number) (hr : Stops rest) : Gives n.text.toList [.num n.reread?] rest := by
  obtain ⟨c, r, htext, hc⟩ := n.toList_text
  have hscan := n.scanNumber_text hr
  rw [htext, List.cons_append] at hscan
  rw [htext]
  refine gives_of_succ (by simp) fun fuel _ => ?_
  have hnot {d : Char} (hd : d ≠ '-' ∧ d.isDigit = false) : c ≠ d := by
    rintro rfl
    simp_all
  have hmarks : c ≠ ' ' ∧ c ≠ '\n' ∧ c ≠ '\t' ∧ c ≠ '\r' ∧ c ≠ '[' ∧ c ≠ ']' ∧ c ≠ '\x7b' ∧ c ≠ '\x7d' ∧ c ≠ ',' ∧
      c ≠ ':' ∧ c ≠ 'n' ∧ c ≠ 't' ∧ c ≠ 'f' ∧ c ≠ '"' := by
    refine ⟨?_, ?_, ?_, ?_, ?_, ?_, ?_, ?_, ?_, ?_, ?_, ?_, ?_, ?_⟩ <;> exact hnot (by decide)
  simp [tokens, hmarks, hscan]

theorem stops_of_mark {c : Char} {t : Token} (h : (c, t) ∈ marks) (rest : List Char) : Stops (c :: rest) := by
  refine stops_cons ?_ rest
  simp only [marks, List.mem_cons, Prod.mk.injEq, List.not_mem_nil, or_false] at h
  obtain ⟨rfl, -⟩ | ⟨rfl, -⟩ | ⟨rfl, -⟩ | ⟨rfl, -⟩ | ⟨rfl, -⟩ | ⟨rfl, -⟩ := h <;> decide

mutual

theorem gives_chars (j : Json) {rest : List Char} (hr : Stops rest) : Gives (chars j) (tokensOf j) rest := by
  match j with
  | .null => exact gives_literal (by simp [literals])
  | .bool true => exact gives_literal (by simp [literals])
  | .bool false => exact gives_literal (by simp [literals])
  | .num n => exact gives_number n hr
  | .str s => exact gives_quoted s
  | .arr xs =>
    have hclose : Gives [']'] [.closeList] rest := gives_mark (by simp [marks])
    have hitems := gives_items xs (stops_of_mark (c := ']') (t := .closeList) (by simp [marks]) rest)
    exact .cons (gives_mark (by simp [marks])) (.append hitems hclose)
  | .obj ms =>
    have hclose : Gives ['\x7d'] [.closeObject] rest := gives_mark (by simp [marks])
    have hmembers := gives_members ms (stops_of_mark (c := '\x7d') (t := .closeObject) (by simp [marks]) rest)
    exact .cons (gives_mark (by simp [marks])) (.append hmembers hclose)

theorem gives_items (xs : List Json) {rest : List Char} (hr : Stops rest) :
    Gives (itemChars xs) (itemTokens xs) rest := by
  match xs with
  | [] => exact gives_nil
  | [j] => exact gives_chars j hr
  | j :: k :: r =>
    exact .append (gives_chars j (stops_of_mark (t := .comma) (by simp [marks]) _))
      (.cons (gives_mark (by simp [marks])) (gives_items (k :: r) hr))

theorem gives_members (ms : List (String × Json)) {rest : List Char} (hr : Stops rest) :
    Gives (memberChars ms) (memberTokens ms) rest := by
  match ms with
  | [] => exact gives_nil
  | [(k, j)] => exact .append (gives_quoted k) (.cons (gives_mark (by simp [marks])) (gives_chars j hr))
  | (k, j) :: m :: r =>
    have hj := gives_chars j (stops_of_mark (c := ',') (t := .comma) (by simp [marks]) (memberChars (m :: r) ++ rest))
    have hrest : Gives (',' :: memberChars (m :: r)) (.comma :: memberTokens (m :: r)) rest :=
      .cons (gives_mark (by simp [marks])) (gives_members (m :: r) hr)
    exact .append (gives_quoted k) (.cons (gives_mark (by simp [marks])) (.append hj hrest))

end

theorem tokens_chars (j : Json) : tokens j.chars.length j.chars = tokensOf j := by
  obtain ⟨left, -, h⟩ := gives_chars j stops_nil j.chars.length (by simp)
  have hnil : tokens left [] = [] := by cases left <;> rfl
  rwa [List.append_nil, hnil, List.append_nil] at h

end Outreach.Json
