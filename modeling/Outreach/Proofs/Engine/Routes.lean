import Mathlib
import Outreach.Automation.Basic
import Outreach.Engine.Routes
import Outreach.Proofs.Keyed

/-! Which edges a node is left by. -/
namespace Outreach

inductive Way where
  | straight
  | outcome (value : Bool)
  | chance
  deriving DecidableEq

def Edge.way (e : Edge) : Way :=
  match e.sourceHandle with
  | some h =>
    if h = "true" then .outcome true
    else if h = "false" then .outcome false
    else if Text.startsWith h "branch-" then .chance
    else .straight
  | none => .straight

/-- Conditionals are left by their outcomes, randomizers by chance, and all other nodes straight. -/
def Node.LeftBy (n : Node) (way : Way) : Prop :=
  match n.data with
  | .action (.conditional ..) => ∃ value, way = .outcome value
  | .action (.randomizer _) => way = .chance
  | _ => way = .straight

def leaving (edges : List Edge) (node : String) (way : Way) : List String :=
  (edges.filter fun e => e.source = node ∧ e.way = way).map (·.target)

theorem leaving_cons (e : Edge) (edges : List Edge) (node : String) (way : Way) :
    leaving (e :: edges) node way = leaving [e] node way ++ leaving edges node way := by
  rw [leaving, ← List.singleton_append, List.filter_append, List.map_append]
  rfl

theorem leaving_singleton (e : Edge) (node : String) (way : Way) :
    leaving [e] node way = if e.source = node ∧ e.way = way then [e.target] else [] := by
  rw [leaving, List.filter_singleton]
  by_cases h : e.source = node ∧ e.way = way
  · simp [h]
  · rw [if_neg h, decide_eq_false h]
    rfl

theorem mem_leaving {edges : List Edge} {node target : String} {way : Way} (h : target ∈ leaving edges node way) :
    ∃ e ∈ edges, e.source = node ∧ e.target = target ∧ e.way = way := by
  obtain ⟨e, he, rfl⟩ := List.mem_map.mp h
  obtain ⟨hmem, hp⟩ := List.mem_filter.mp he
  obtain ⟨hsource, hway⟩ := of_decide_eq_true hp
  exact ⟨e, hmem, hsource, rfl, hway⟩

def Edge.redirected (b : String → String) (e : Edge) : Edge := { e with target := b e.target }

theorem leaving_redirected (b : String → String) (edges : List Edge) (node : String) (way : Way) :
    leaving (edges.map (Edge.redirected b)) node way = (leaving edges node way).map b := by
  rw [leaving, List.filter_map, List.map_map, leaving, List.map_map]
  rfl

namespace Routes

def straightOnes (r : Routes) (node : String) : List String := (Keyed.get? r.straight node).getD []

theorem get?_append (m : Keyed (List String)) (e : Edge) (node : String) :
    (Keyed.get? (append m e) node).getD [] =
      (Keyed.get? m node).getD [] ++ if e.source = node then [e.target] else [] := by
  rw [append, Keyed.get?_put]
  by_cases h : e.source = node
  · rw [if_pos h, if_pos h, h]
    rfl
  · rw [if_neg h, if_neg h, List.append_nil]

theorem add_eq (r : Routes) (e : Edge) : r.add e =
    match e.way with
    | .straight => { r with straight := append r.straight e }
    | .outcome true =>
      { r with conditional := Keyed.put e.source { r.branches e.source with onTrue := some e.target } r.conditional }
    | .outcome false =>
      { r with conditional := Keyed.put e.source { r.branches e.source with onFalse := some e.target } r.conditional }
    | .chance => { r with randomized := append r.randomized e } := by
  cases hhandle : e.sourceHandle with
  | none => simp only [add, Edge.way, hhandle]
  | some h =>
    simp only [add, Edge.way, hhandle]
    by_cases htrue : h = "true"
    · rw [if_pos htrue, if_pos htrue]
    · by_cases hfalse : h = "false"
      · rw [if_neg htrue, if_pos hfalse, if_neg htrue, if_pos hfalse]
      · rw [if_neg htrue, if_neg hfalse, if_neg htrue, if_neg hfalse]
        split <;> rfl

theorem straightOnes_add (r : Routes) (e : Edge) (node : String) :
    (r.add e).straightOnes node = r.straightOnes node ++ leaving [e] node .straight := by
  rw [leaving_singleton, add_eq]
  cases h : e.way with
  | straight => simpa [straightOnes] using get?_append r.straight e node
  | outcome value => cases value <;> simp [straightOnes]
  | chance => simp [straightOnes]

theorem randomBranches_add (r : Routes) (e : Edge) (node : String) :
    (r.add e).randomBranches node = r.randomBranches node ++ leaving [e] node .chance := by
  rw [leaving_singleton, add_eq]
  cases h : e.way with
  | straight => simp [randomBranches]
  | outcome value => cases value <;> simp [randomBranches]
  | chance => simpa [randomBranches] using get?_append r.randomized e node

theorem branch?_add (r : Routes) (e : Edge) (node : String) (value : Bool) :
    (r.add e).branch? node value = (leaving [e] node (.outcome value)).getLast?.or (r.branch? node value) := by
  rw [leaving_singleton, add_eq]
  by_cases hsource : e.source = node
  · subst hsource
    cases h : e.way with
    | straight => simp [branch?, branches]
    | outcome other => cases other <;> cases value <;> simp [branch?, branches, Keyed.get?_put]
    | chance => simp [branch?, branches]
  · cases h : e.way with
    | straight => simp [branch?, branches, hsource]
    | outcome other => cases other <;> cases value <;> simp [branch?, branches, Keyed.get?_put, hsource]
    | chance => simp [branch?, branches, hsource]

theorem straightOnes_foldl (r : Routes) (edges : List Edge) (node : String) :
    (edges.foldl add r).straightOnes node = r.straightOnes node ++ leaving edges node .straight := by
  induction edges generalizing r with
  | nil => exact (List.append_nil _).symm
  | cons e edges ih => rw [List.foldl_cons, ih, straightOnes_add, leaving_cons e edges, List.append_assoc]

theorem randomBranches_foldl (r : Routes) (edges : List Edge) (node : String) :
    (edges.foldl add r).randomBranches node = r.randomBranches node ++ leaving edges node .chance := by
  induction edges generalizing r with
  | nil => exact (List.append_nil _).symm
  | cons e edges ih => rw [List.foldl_cons, ih, randomBranches_add, leaving_cons e edges, List.append_assoc]

theorem branch?_foldl (r : Routes) (edges : List Edge) (node : String) (value : Bool) :
    (edges.foldl add r).branch? node value =
      (leaving edges node (.outcome value)).getLast?.or (r.branch? node value) := by
  induction edges generalizing r with
  | nil => rfl
  | cons e edges ih =>
    rw [List.foldl_cons, ih, branch?_add, leaving_cons e edges, List.getLast?_append, Option.or_assoc]

theorem next?_classify (edges : List Edge) (node : String) :
    (classify edges).next? node = (leaving edges node .straight).head? :=
  congrArg List.head? (straightOnes_foldl empty edges node)

theorem branch?_classify (edges : List Edge) (node : String) (value : Bool) :
    (classify edges).branch? node value = (leaving edges node (.outcome value)).getLast? := by
  rw [classify, branch?_foldl]
  cases value <;> exact Option.or_none

theorem randomBranches_classify (edges : List Edge) (node : String) :
    (classify edges).randomBranches node = leaving edges node .chance :=
  randomBranches_foldl empty edges node

section
variable (b : String → String) (edges : List Edge) (node : String)

theorem next?_redirected :
    (classify (edges.map (Edge.redirected b))).next? node = ((classify edges).next? node).map b := by
  rw [next?_classify, next?_classify, leaving_redirected, List.head?_map]

theorem branch?_redirected (value : Bool) :
    (classify (edges.map (Edge.redirected b))).branch? node value = ((classify edges).branch? node value).map b := by
  rw [branch?_classify, branch?_classify, leaving_redirected, List.getLast?_map]

theorem randomBranches_redirected :
    (classify (edges.map (Edge.redirected b))).randomBranches node = ((classify edges).randomBranches node).map b := by
  rw [randomBranches_classify, randomBranches_classify, leaving_redirected]

end

def successors (r : Routes) (n : Node) : List String :=
  match n.data with
  | .action (.conditional ..) => (r.branch? n.id true).toList ++ (r.branch? n.id false).toList
  | .action (.randomizer _) => r.randomBranches n.id
  | _ => (r.next? n.id).toList

/-- Each of them is joined by an edge that fits the node. -/
theorem mem_successors_classify {edges : List Edge} {n : Node} {target : String}
    (h : target ∈ (classify edges).successors n) :
    ∃ e ∈ edges, e.source = n.id ∧ e.target = target ∧ n.LeftBy e.way := by
  unfold successors at h
  unfold Node.LeftBy
  split at h
  · obtain ⟨value, hvalue⟩ : ∃ value, (classify edges).branch? n.id value = some target := by
      obtain h | h := List.mem_append.mp h <;> exact ⟨_, Option.mem_toList.mp h⟩
    rw [branch?_classify] at hvalue
    obtain ⟨e, he, hsource, htarget, hway⟩ := mem_leaving (List.mem_of_getLast? hvalue)
    exact ⟨e, he, hsource, htarget, value, hway⟩
  · rw [randomBranches_classify] at h
    exact mem_leaving h
  · rw [next?_classify, Option.mem_toList] at h
    exact mem_leaving (List.mem_of_head? h)

end Routes
end Outreach
