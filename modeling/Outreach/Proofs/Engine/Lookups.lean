import Mathlib
import Outreach.Proofs.Engine.Routes

/-! The successors of a node, looked up in the list of edges itself: of the straight ones the first, of those for an
outcome the last, and all branches. Each edge counts in one of the three ways only, and only the order among the edges of
one source matters. -/
namespace Outreach
namespace Edge

def GoesOn (e : Edge) : Prop :=
  ∀ handle ∈ e.sourceHandle, handle ≠ "true" ∧ handle ≠ "false" ∧ ¬ "branch-".toList <+: handle.toList

def IsFor (e : Edge) (value : Bool) : Prop := e.sourceHandle = some (if value then "true" else "false")

def IsBranch (e : Edge) : Prop := ∃ handle ∈ e.sourceHandle, "branch-".toList <+: handle.toList

theorem startsWith_iff {text start : String} : Text.startsWith text start = true ↔ start.toList <+: text.toList :=
  List.isPrefixOf_iff_prefix

theorem way_spec (e : Edge) : e.way = .straight ∧ e.GoesOn ∨ (∃ value, e.way = .outcome value ∧ e.IsFor value) ∨
    e.way = .chance ∧ e.IsBranch := by
  unfold way GoesOn IsFor IsBranch
  cases e.sourceHandle with
  | none => exact .inl ⟨rfl, nofun⟩
  | some handle =>
    simp only [startsWith_iff]
    split_ifs with htrue hfalse hbranch
    · exact .inr (.inl ⟨true, rfl, congrArg some htrue⟩)
    · exact .inr (.inl ⟨false, rfl, congrArg some hfalse⟩)
    · exact .inr (.inr ⟨rfl, handle, rfl, hbranch⟩)
    · refine .inl ⟨rfl, fun _ h => ?_⟩
      cases h
      exact ⟨htrue, hfalse, hbranch⟩

theorem IsFor.unique {e : Edge} {value value' : Bool} (h : e.IsFor value) (h' : e.IsFor value') : value = value' := by
  have hhandle := Option.some.inj (h.symm.trans h')
  revert hhandle
  cases value <;> cases value' <;> decide

theorem GoesOn.not_isFor {e : Edge} (h : e.GoesOn) (value : Bool) : ¬ e.IsFor value := by
  intro hfor
  obtain ⟨htrue, hfalse, -⟩ := h _ hfor
  cases value
  · exact hfalse rfl
  · exact htrue rfl

theorem IsBranch.not_goesOn {e : Edge} (h : e.IsBranch) : ¬ e.GoesOn := by
  obtain ⟨handle, hhandle, hbranch⟩ := h
  exact fun hon => (hon handle hhandle).2.2 hbranch

theorem IsBranch.not_isFor {e : Edge} (h : e.IsBranch) (value : Bool) : ¬ e.IsFor value := by
  obtain ⟨handle, hhandle, hbranch⟩ := h
  intro hfor
  cases hhandle.symm.trans hfor
  revert hbranch
  cases value <;> decide

theorem way_eq_straight_iff {e : Edge} : e.way = .straight ↔ e.GoesOn := by
  obtain ⟨hway, hon⟩ | ⟨value, hway, hfor⟩ | ⟨hway, hbranch⟩ := e.way_spec
  · exact iff_of_true hway hon
  · exact iff_of_false (by simp [hway]) fun hon => hon.not_isFor value hfor
  · exact iff_of_false (by simp [hway]) hbranch.not_goesOn

theorem way_eq_outcome_iff {e : Edge} {value : Bool} : e.way = .outcome value ↔ e.IsFor value := by
  obtain ⟨hway, hon⟩ | ⟨other, hway, hfor⟩ | ⟨hway, hbranch⟩ := e.way_spec
  · exact iff_of_false (by simp [hway]) (hon.not_isFor value)
  · rw [hway, Way.outcome.injEq]
    exact ⟨fun h => h ▸ hfor, hfor.unique⟩
  · exact iff_of_false (by simp [hway]) (hbranch.not_isFor value)

theorem way_eq_chance_iff {e : Edge} : e.way = .chance ↔ e.IsBranch := by
  obtain ⟨hway, hon⟩ | ⟨value, hway, hfor⟩ | ⟨hway, hbranch⟩ := e.way_spec
  · exact iff_of_false (by simp [hway]) fun hbranch => hbranch.not_goesOn hon
  · exact iff_of_false (by simp [hway]) fun hbranch => hbranch.not_isFor value hfor
  · exact iff_of_true hway hbranch

instance (e : Edge) : Decidable e.GoesOn := decidable_of_iff _ way_eq_straight_iff

instance (e : Edge) (value : Bool) : Decidable (e.IsFor value) := decidable_of_iff _ way_eq_outcome_iff

instance (e : Edge) : Decidable e.IsBranch := decidable_of_iff _ way_eq_chance_iff

end Edge

section
variable {α : Type} {l : List α} {σ : Equiv.Perm (Fin l.length)}

def rearranged (l : List α) (σ : Equiv.Perm (Fin l.length)) : List α := List.ofFn fun i => l[σ.symm i]

/-- What keeps its order among itself stands as it stood. -/
theorem filter_rearranged {p : α → Bool} (h : ∀ i j, i < j → p l[i] = true → p l[j] = true → σ i < σ j) :
    (rearranged l σ).filter p = l.filter p := by
  have hplaces : ((List.finRange l.length).filter fun i => p l[σ.symm i]).map σ.symm =
      (List.finRange l.length).filter fun i => p l[i] := by
    -- Both lists of places ascend, the first because the order is kept, and they have the same members.
    refine @List.Perm.eq_of_pairwise _ (· < ·) _ _ (fun i j _ _ hij hji => absurd hij (lt_asymm hji)) ?_ ?_ ?_
    · rw [List.pairwise_map]
      refine List.Pairwise.imp_of_mem (fun {i j} hi hj hij => ?_) ((List.pairwise_lt_finRange _).filter _)
      by_contra hnot
      have hback : σ.symm j < σ.symm i := lt_of_le_of_ne (not_lt.mp hnot) fun heq => hij.ne (σ.symm.injective heq).symm
      have hforth := h _ _ hback (List.mem_filter.mp hj).2 (List.mem_filter.mp hi).2
      rw [Equiv.apply_symm_apply, Equiv.apply_symm_apply] at hforth
      exact lt_asymm hij hforth
    · exact (List.pairwise_lt_finRange _).filter _
    · refine (List.perm_ext_iff_of_nodup ?_ ?_).mpr fun i => ?_
      · exact ((List.nodup_finRange _).filter _).map σ.symm.injective
      · exact (List.nodup_finRange _).filter _
      · simp only [List.mem_map, List.mem_filter, List.mem_finRange, true_and]
        constructor
        · rintro ⟨j, hj, rfl⟩
          exact hj
        · exact fun hi => ⟨σ i, by simpa using hi, σ.symm_apply_apply i⟩
  have hl : (List.finRange l.length).map (fun i => l[i]) = l := by
    rw [← List.ofFn_eq_map]
    exact List.ofFn_getElem
  calc (rearranged l σ).filter p
      = (((List.finRange l.length).filter fun i => p l[σ.symm i]).map σ.symm).map fun i => l[i] := by
        rw [rearranged, List.ofFn_eq_map, List.filter_map, List.map_map]
        rfl
    _ = ((List.finRange l.length).map fun i => l[i]).filter p := by
        rw [hplaces, List.filter_map]
        rfl
    _ = l.filter p := by rw [hl]

end

def KeepsOrder (edges : List Edge) (σ : Equiv.Perm (Fin edges.length)) : Prop :=
  ∀ i j, i < j → edges[i].source = edges[j].source → σ i < σ j

namespace Routes
variable {edges : List Edge} {node : String}

theorem next?_eq_find? : (classify edges).next? node =
    (edges.find? fun e => e.source = node ∧ e.GoesOn).map (·.target) := by
  simp only [next?_classify, leaving, List.head?_map, List.head?_filter, Edge.way_eq_straight_iff]

theorem branch?_eq_findRev? (value : Bool) : (classify edges).branch? node value =
    (edges.findRev? fun e => e.source = node ∧ e.IsFor value).map (·.target) := by
  simp only [branch?_classify, leaving, List.getLast?_map, List.getLast?_filter, Edge.way_eq_outcome_iff,
    List.findRev?_eq_find?_reverse]

theorem randomBranches_eq_filter : (classify edges).randomBranches node =
    (edges.filter fun e => e.source = node ∧ e.IsBranch).map (·.target) := by
  simp only [randomBranches_classify, leaving, Edge.way_eq_chance_iff]

/-- An edge that leaves its node in another way may as well be missing. -/
theorem leaving_without {before after : List Edge} {e : Edge} {way : Way} (h : e.way ≠ way) (node : String) :
    leaving (before ++ e :: after) node way = leaving (before ++ after) node way := by
  simp [leaving, h]

theorem leaving_rearranged {σ : Equiv.Perm (Fin edges.length)} (h : KeepsOrder edges σ) (node : String) (way : Way) :
    leaving (rearranged edges σ) node way = leaving edges node way := by
  have hbySource (edges : List Edge) : leaving edges node way =
      ((edges.filter fun e => e.source = node).filter fun e => e.way = way).map (·.target) := by
    rw [leaving, List.filter_filter]
    simp only [Bool.decide_and, Bool.and_comm]
  rw [hbySource, hbySource, filter_rearranged fun i j hij hi hj => h i j hij ?_]
  rw [of_decide_eq_true hi, of_decide_eq_true hj]

/-- A node leads on to the target of its first edge that is neither for an outcome nor a branch, by an outcome to that of its
last edge for the outcome, and at random to those of all its branches in order. Each edge is of one of the three kinds, and
the lookups of the other two come out as without it; and they come out the same for the edges in another order that is the
same for each source. -/
theorem lookups_read_edges (edges : List Edge) :
    (∀ node, (classify edges).next? node = (edges.find? fun e => e.source = node ∧ e.GoesOn).map (·.target) ∧
      (∀ value, (classify edges).branch? node value =
        (edges.findRev? fun e => e.source = node ∧ e.IsFor value).map (·.target)) ∧
      (classify edges).randomBranches node = (edges.filter fun e => e.source = node ∧ e.IsBranch).map (·.target)) ∧
    (∀ before e after, edges = before ++ e :: after →
      (e.GoesOn ∧ (∀ value, ¬ e.IsFor value) ∧ ¬ e.IsBranch ∨ ¬ e.GoesOn ∧ (∃! value, e.IsFor value) ∧ ¬ e.IsBranch ∨
        ¬ e.GoesOn ∧ (∀ value, ¬ e.IsFor value) ∧ e.IsBranch) ∧
      ∀ node, (¬ e.GoesOn → (classify edges).next? node = (classify (before ++ after)).next? node) ∧
        (∀ value, ¬ e.IsFor value →
          (classify edges).branch? node value = (classify (before ++ after)).branch? node value) ∧
        (¬ e.IsBranch → (classify edges).randomBranches node = (classify (before ++ after)).randomBranches node)) ∧
    ∀ σ, KeepsOrder edges σ → ∀ node,
      (classify (rearranged edges σ)).next? node = (classify edges).next? node ∧
      (∀ value, (classify (rearranged edges σ)).branch? node value = (classify edges).branch? node value) ∧
      (classify (rearranged edges σ)).randomBranches node = (classify edges).randomBranches node := by
  refine ⟨fun node => ⟨next?_eq_find?, branch?_eq_findRev?, randomBranches_eq_filter⟩, fun before e after hedges => ⟨?_, ?_⟩,
    fun σ h node => ⟨?_, fun value => ?_, ?_⟩⟩
  · obtain ⟨-, hon⟩ | ⟨value, -, hfor⟩ | ⟨-, hbranch⟩ := e.way_spec
    · exact .inl ⟨hon, hon.not_isFor, fun hbranch => hbranch.not_goesOn hon⟩
    · exact .inr (.inl ⟨fun hon => hon.not_isFor value hfor, ⟨value, hfor, fun _ h => h.unique hfor⟩,
        fun hbranch => hbranch.not_isFor value hfor⟩)
    · exact .inr (.inr ⟨hbranch.not_goesOn, hbranch.not_isFor, hbranch⟩)
  · subst hedges
    refine fun node => ⟨fun h => ?_, fun value h => ?_, fun h => ?_⟩
    · rw [next?_classify, next?_classify, leaving_without (mt Edge.way_eq_straight_iff.mp h)]
    · rw [branch?_classify, branch?_classify, leaving_without (mt Edge.way_eq_outcome_iff.mp h)]
    · rw [randomBranches_classify, randomBranches_classify, leaving_without (mt Edge.way_eq_chance_iff.mp h)]
  · rw [next?_classify, next?_classify, leaving_rearranged h]
  · rw [branch?_classify, branch?_classify, leaving_rearranged h]
  · rw [randomBranches_classify, randomBranches_classify, leaving_rearranged h]

def replies : List Edge :=
  [⟨none, "ask", "thank", some "true"⟩, ⟨none, "start", "ask", none⟩, ⟨none, "ask", "offer", some "true"⟩]

def startFirst : Equiv.Perm (Fin replies.length) := Equiv.swap ⟨0, by decide⟩ ⟨1, by decide⟩

/-- The later of two edges for one outcome is taken wherever the edge of another node stands. -/
theorem lookups_read_edges_startFirst : KeepsOrder replies startFirst ∧
    (classify (rearranged replies startFirst)).branch? "ask" true = some "offer" := by
  have hkeeps : KeepsOrder replies startFirst := by
    unfold KeepsOrder
    decide
  obtain ⟨-, hoffer, -⟩ := (lookups_read_edges replies).2.2 startFirst hkeeps "ask"
  exact ⟨hkeeps, (hoffer true).trans (by decide)⟩

end Routes
end Outreach
