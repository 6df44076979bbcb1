import Mathlib
import Outreach.Engine.Interpolation
import Outreach.Proofs.Attempts
import Outreach.Proofs.Text.Segments

/-! What a template becomes. It splits in one way into tokens and single characters, without regard to any context; then each
piece becomes a text of its own, and nothing that was put in place of a token is read again. -/
namespace Outreach
open Text

namespace Json

def shown : Json → List Char
  | .null => "null".toList
  | .bool b => (if b then "true" else "false").toList
  | .num n => n.text.toList
  | .str s => s.toList
  | .arr items => chars (.arr items)
  | .obj members => chars (.obj members)

theorem rendered?_eq_some {j : Json} {text : List Char} : j.rendered? = some text ↔ j ≠ .null ∧ text = j.shown := by
  cases j <;> simp [rendered?, scalarText?, shown, eq_comm]

inductive Leads : Json → List (List Char) → Json → Prop where
  | here {j : Json} : Leads j [] j
  | member {members : List (String × Json)} {key : List Char} {j v : Json} {rest : List (List Char)}
      (found : Keyed.get? members (String.ofList key) = some j) (goes : Leads j rest v) : Leads (.obj members) (key :: rest) v
  | item {items : List Json} {segment : List Char} {i : Nat} {j v : Json} {rest : List (List Char)}
      (index : IsIndex segment i) (found : items[i]? = some j) (goes : Leads j rest v) : Leads (.arr items) (segment :: rest) v

theorem leads_cons_iff {j v : Json} {segment : List Char} {rest : List (List Char)} :
    Leads j (segment :: rest) v ↔ ∃ k, child? segment j = some k ∧ Leads k rest v := by
  constructor
  · rintro (_ | ⟨found, goes⟩ | ⟨index, found, goes⟩)
    · exact ⟨_, found, goes⟩
    · exact ⟨_, by rw [child?, isIndex_iff.mp index, Option.bind_some, found], goes⟩
  · rintro ⟨k, hchild, goes⟩
    cases j with
    | obj members => exact .member hchild goes
    | arr items =>
      obtain ⟨i, hindex, found⟩ := Option.bind_eq_some_iff.mp hchild
      exact .item (isIndex_iff.mpr hindex) found goes
    | _ => cases hchild

theorem leads_iff {j v : Json} {segments : List (List Char)} :
    Leads j segments v ↔ segments.foldl (fun found s => found.bind (child? s)) (some j) = some v := by
  induction segments generalizing j with
  | nil => exact ⟨fun | .here => rfl, fun h => Option.some.inj h ▸ .here⟩
  | cons s rest ih =>
    rw [leads_cons_iff, List.foldl_cons, Option.bind_some]
    cases hchild : child? s j with
    | none => simp [foldl_bind_none]
    | some k => simp [ih]

def PathLeads (context : Json) (path : List Char) (v : Json) : Prop :=
  ∃ inner segments, IsTrimmed path inner ∧ IsDotted inner segments ∧ context.Leads segments v

theorem pathLeads_iff {context v : Json} {path : List Char} : PathLeads context path v ↔ context.lookup? path = some v := by
  constructor
  · rintro ⟨inner, segments, htrimmed, hdotted, hleads⟩
    rw [lookup?, isTrimmed_iff.mp htrimmed, isDotted_iff.mp hdotted]
    exact leads_iff.mp hleads
  · exact fun h => ⟨_, _, isTrimmed_trimChars path, isDotted_iff.mpr rfl, leads_iff.mpr h⟩

end Json

namespace Template

def IsPath (path : List Char) : Prop := path ≠ [] ∧ '\x7d' ∉ path

def tokenText (path : List Char) : List Char := '\x7b' :: '\x7b' :: (path ++ ['\x7d', '\x7d'])

inductive Piece where
  | literal (c : Char)
  | token (path : List Char)

def Piece.text : Piece → List Char
  | .literal c => [c]
  | .token path => tokenText path

/-- From left to right, a token wherever one begins, and one character wherever none does. -/
inductive Splits : List Char → List Piece → Prop where
  | nil : Splits [] []
  | token {path s : List Char} {pieces : List Piece} (isPath : IsPath path) (rest : Splits s pieces) :
      Splits (tokenText path ++ s) (.token path :: pieces)
  | literal {c : Char} {s : List Char} {pieces : List Piece}
      (noToken : ∀ path r, IsPath path → c :: s ≠ tokenText path ++ r) (rest : Splits s pieces) :
      Splits (c :: s) (.literal c :: pieces)

/-- What a piece becomes: a token whose path leads to a value other than null becomes the text of the value. -/
inductive Piece.Becomes (context : Json) : Piece → List Char → Prop where
  | literal (c : Char) : Becomes context (.literal c) [c]
  | replaced {path : List Char} {v : Json} (leads : context.PathLeads path v) (notNull : v ≠ .null) :
      Becomes context (.token path) v.shown
  | kept {path : List Char} (nowhere : ∀ v, context.PathLeads path v → v = .null) :
      Becomes context (.token path) (tokenText path)

variable {context : Json} {path s : List Char} {pieces : List Piece}

theorem isPath_iff : IsPath path ↔ path ≠ [] ∧ ∀ c ∈ path, (c != '\x7d') = true := by
  refine and_congr_right fun _ => ⟨fun h c hc => ?_, fun h hc => absurd (h _ hc) (by decide)⟩
  exact bne_iff_ne.mpr fun heq => h (heq ▸ hc)

theorem token?_tokenText (h : IsPath path) (r : List Char) : token? (tokenText path ++ r) = some path := by
  obtain ⟨hne, hinside⟩ := isPath_iff.mp h
  have htext : tokenText path ++ r = '\x7b' :: '\x7b' :: (path ++ '\x7d' :: '\x7d' :: r) := by simp [tokenText]
  have hpath : (path ++ '\x7d' :: '\x7d' :: r).takeWhile (· != '\x7d') = path := by
    rw [List.takeWhile_append_of_pos hinside]
    exact List.append_nil path
  have hrest : (path ++ '\x7d' :: '\x7d' :: r).dropWhile (· != '\x7d') = '\x7d' :: '\x7d' :: r := by
    rw [List.dropWhile_append_of_pos hinside]
    rfl
  rw [htext, token?, hpath, hrest]
  simp [hne]

theorem token?_eq_some : token? s = some path ↔ IsPath path ∧ ∃ r, s = tokenText path ++ r := by
  refine ⟨fun h => ?_, fun ⟨h, r, hs⟩ => hs ▸ token?_tokenText h r⟩
  unfold token? at h
  split at h
  · rename_i r
    obtain ⟨hcond, hpath⟩ := Option.ite_none_right_eq_some.mp h
    obtain ⟨hne, r', hclosed⟩ := (Bool.and_eq_true _ _).mp hcond |>.imp_right List.isPrefixOf_iff_prefix.mp
    cases hpath
    refine ⟨isPath_iff.mpr ⟨by simpa using hne, fun _ => List.mem_takeWhile_imp⟩, r', ?_⟩
    rw [tokenText, List.cons_append, List.cons_append, List.append_assoc, hclosed, List.takeWhile_append_dropWhile]
  · cases h

theorem token?_eq_none : token? s = none ↔ ∀ path r, IsPath path → s ≠ tokenText path ++ r := by
  rw [Option.eq_none_iff_forall_ne_some]
  exact ⟨fun h path r hpath hs => h path (token?_eq_some.mpr ⟨hpath, r, hs⟩),
    fun h path hs => (token?_eq_some.mp hs).elim fun hpath ⟨r, hr⟩ => h path r hpath hr⟩

theorem length_tokenText (path : List Char) : (tokenText path).length = path.length + 4 := by simp [tokenText]

theorem exists_splits (s : List Char) : ∃ pieces, Splits s pieces := by
  induction hlen : s.length using Nat.strong_induction_on generalizing s with
  | _ n ih =>
    cases htoken : token? s with
    | some path =>
      obtain ⟨hpath, r, rfl⟩ := token?_eq_some.mp htoken
      obtain ⟨pieces, hrest⟩ := ih r.length (by rw [← hlen, List.length_append, length_tokenText]; omega) r rfl
      exact ⟨_, .token hpath hrest⟩
    | none =>
      cases s with
      | nil => exact ⟨[], .nil⟩
      | cons c r =>
        obtain ⟨pieces, hrest⟩ := ih r.length (by rw [← hlen]; exact Nat.lt_succ_self _) r rfl
        exact ⟨_, .literal (token?_eq_none.mp htoken) hrest⟩

theorem Splits.text (h : Splits s pieces) : pieces.flatMap Piece.text = s := by
  induction h with
  | nil => rfl
  | token isPath rest ih => rw [List.flatMap_cons, ih, Piece.text]
  | literal noToken rest ih => rw [List.flatMap_cons, ih]; rfl

/-- What begins a text decides what its first piece is. -/
theorem Splits.unique (h : Splits s pieces) {others : List Piece} (ho : Splits s others) : others = pieces := by
  induction h generalizing others with
  | nil => cases ho; rfl
  | token isPath rest ih =>
    rename_i path r pieces
    generalize hs : tokenText path ++ r = text at ho
    cases ho with
    | nil => cases hs
    | token isPath' rest' =>
      rename_i path' r' pieces'
      have hpath := (token?_tokenText isPath r).symm.trans ((congrArg token? hs).trans (token?_tokenText isPath' r'))
      cases hpath
      cases List.append_cancel_left hs
      rw [ih rest']
    | literal noToken rest' => exact absurd hs.symm (noToken _ _ isPath)
  | literal noToken rest ih =>
    rename_i c r pieces
    generalize hs : c :: r = text at ho
    cases ho with
    | nil => cases hs
    | token isPath' rest' => exact absurd hs (noToken _ _ isPath')
    | literal noToken' rest' =>
      cases hs
      rw [ih rest']

theorem becomes_token_iff {text : List Char} : (Piece.token path).Becomes context text ↔ replacement context path = text := by
  rw [replacement]
  cases hfound : context.lookup? path with
  | none =>
    have hnowhere (v : Json) (h : context.PathLeads path v) : v = .null := by
      cases hfound.symm.trans (Json.pathLeads_iff.mp h)
    refine ⟨?_, fun h => h ▸ .kept hnowhere⟩
    rintro (_ | ⟨leads, notNull⟩ | _)
    · exact absurd (hnowhere _ leads) notNull
    · rfl
  | some v =>
    have hleads : context.PathLeads path v := Json.pathLeads_iff.mpr hfound
    have honly (w : Json) (h : context.PathLeads path w) : w = v :=
      Option.some.inj ((Json.pathLeads_iff.mp h).symm.trans hfound)
    rw [Option.bind_some]
    constructor
    · rintro (_ | ⟨leads, notNull⟩ | nowhere)
      · rw [honly _ leads] at notNull ⊢
        rw [Json.rendered?_eq_some.mpr ⟨notNull, rfl⟩, Option.getD_some]
      · rw [nowhere v hleads]
        rfl
    · intro h
      cases htext : v.rendered? with
      | none =>
        rw [htext] at h
        have hnull : v = .null := by
          by_contra hne
          cases htext.symm.trans (Json.rendered?_eq_some.mpr ⟨hne, rfl⟩)
        exact h ▸ .kept fun w hw => (honly w hw).trans hnull
      | some shown =>
        obtain ⟨hne, rfl⟩ := Json.rendered?_eq_some.mp htext
        rw [htext] at h
        exact h ▸ .replaced hleads hne

theorem fillFrom_skip (context : Json) (s r : List Char) : fillFrom context s.length (s ++ r) = fillFrom context 0 r := by
  induction s with
  | nil => rfl
  | cons c s ih => exact ih

theorem fillFrom_token (h : IsPath path) (r : List Char) :
    fillFrom context 0 (tokenText path ++ r) = replacement context path ++ fillFrom context 0 r := by
  have htoken : token? ('\x7b' :: ('\x7b' :: (path ++ ['\x7d', '\x7d']) ++ r)) = some path := token?_tokenText h r
  have hskip := fillFrom_skip context ('\x7b' :: (path ++ ['\x7d', '\x7d'])) r
  rw [List.length_cons, List.length_append] at hskip
  rw [tokenText, List.cons_append, fillFrom, htoken]
  exact congrArg (replacement context path ++ ·) hskip

theorem fillFrom_literal {c : Char} {r : List Char} (h : token? (c :: r) = none) :
    fillFrom context 0 (c :: r) = c :: fillFrom context 0 r := by rw [fillFrom, h]

/-- The text is filled piece by piece, by induction on the pieces. -/
theorem Splits.fills (h : Splits s pieces) {text : List Char} :
    fillFrom context 0 s = text ↔ ∃ texts, List.Forall₂ (Piece.Becomes context) pieces texts ∧ text = texts.flatten := by
  induction h generalizing text with
  | nil => simp [fillFrom, eq_comm]
  | token isPath rest ih =>
    rw [fillFrom_token isPath]
    constructor
    · rintro rfl
      obtain ⟨texts, hrest, hflat⟩ := ih.mp rfl
      exact ⟨_, .cons (becomes_token_iff.mpr rfl) hrest, by rw [List.flatten_cons, ← hflat]⟩
    · rintro ⟨texts, hall, rfl⟩
      cases hall with
      | cons hfirst hrest => rw [becomes_token_iff.mp hfirst, ih.mpr ⟨_, hrest, rfl⟩, List.flatten_cons]
  | literal noToken rest ih =>
    rw [fillFrom_literal (token?_eq_none.mpr noToken)]
    constructor
    · rintro rfl
      obtain ⟨texts, hrest, hflat⟩ := ih.mp rfl
      exact ⟨_, .cons (.literal _) hrest, by rw [List.flatten_cons, ← hflat]; rfl⟩
    · rintro ⟨texts, hall, rfl⟩
      cases hall with
      | cons hfirst hrest =>
        cases hfirst
        rw [ih.mpr ⟨_, hrest, rfl⟩]
        rfl

/-- A template splits in exactly one way, and that split alone says what it becomes in each context: its pieces become their
texts one after the other. -/
theorem interpolate_splits (template : String) :
    ∃ pieces, Splits template.toList pieces ∧ (∀ others, Splits template.toList others → others = pieces) ∧
      pieces.flatMap Piece.text = template.toList ∧
      ∀ context text, interpolate template context = text ↔
        ∃ texts, List.Forall₂ (Piece.Becomes context) pieces texts ∧ text.toList = texts.flatten := by
  obtain ⟨pieces, hsplits⟩ := exists_splits template.toList
  refine ⟨pieces, hsplits, fun others => hsplits.unique, hsplits.text, fun context text => ?_⟩
  rw [← hsplits.fills, interpolate, ← String.toList_inj, String.toList_ofList]

end Template
end Outreach
