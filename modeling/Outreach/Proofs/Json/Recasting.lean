import Mathlib.Data.List.Nodup
import Outreach.Proofs.Automation.Written

/-! Records in other words: members put in between whose names the record does not know, and fields told otherwise. When a
record is read, what matters of the document is what it finds for each field. -/
namespace Outreach
open Decode Json

def Doc.field? (names : List String) (d : Doc) (name : String) : Option Doc :=
  match d with
  | .obj ms => member? ms name
  | .arr ds => ((names.zip ds).find? (·.1 == name)).map (·.2)
  | _ => none

namespace Decode

section
variable (R : String → Doc → Doc → Prop)

/-- Members in other words: `R` says how the documents of the known fields may differ; those of others may in any way. -/
inductive MembersRecast (names : List String) : List (Option String × Doc) → List (Option String × Doc) → Prop where
  | nil : MembersRecast names [] []
  | known {k : String} {d d' : Doc} {ms ms' : List (Option String × Doc)} (isKnown : k ∈ names) (alters : R k d d')
      (rest : MembersRecast names ms ms') : MembersRecast names ((some k, d) :: ms) ((some k, d') :: ms')
  | unknown {key : Option String} {d d' : Doc} {ms ms' : List (Option String × Doc)} (unknown : ∀ k ∈ names, key ≠ some k)
      (whole : d.isWhole = d'.isWhole) (rest : MembersRecast names ms ms') :
      MembersRecast names ((key, d) :: ms) ((key, d') :: ms')
  | inserted {k : String} {d : Doc} {ms ms' : List (Option String × Doc)} (unknown : k ∉ names) (whole : d.isWhole = true)
      (rest : MembersRecast names ms ms') : MembersRecast names ms ((some k, d) :: ms')

inductive PositionsRecast : List String → List Doc → List Doc → Prop where
  | nil (names : List String) : PositionsRecast names [] []
  | known {name : String} {names : List String} {d d' : Doc} {ds ds' : List Doc} (alters : R name d d')
      (rest : PositionsRecast names ds ds') : PositionsRecast (name :: names) (d :: ds) (d' :: ds')
  | beyond (ds : List Doc) : PositionsRecast [] ds ds

inductive Recast (names : List String) : Doc → Doc → Prop where
  | members {ms ms' : List (Option String × Doc)} (recast : MembersRecast R names ms ms') : Recast names (.obj ms) (.obj ms')
  | positions {ds ds' : List Doc} (recast : PositionsRecast R names ds ds') : Recast names (.arr ds) (.arr ds')

end

variable {α β : Type} {o : Origin} {names seen : List String} {R : String → Doc → Doc → Prop}
  {ms ms' : List (Option String × Doc)} {ds ds' : List Doc} {name : String} {d d' : Doc}

/-- What a record asks of its members before it is built: each has a name, one that is known and was not seen before, or
one that is not known, and then the rest of it is whole. -/
inductive Orderly (names : List String) : List String → List (Option String × Doc) → Prop where
  | nil (seen : List String) : Orderly names seen []
  | known {seen : List String} {k : String} {ms : List (Option String × Doc)} (isKnown : k ∈ names) (isNew : k ∉ seen)
      (d : Doc) (rest : Orderly names (k :: seen) ms) : Orderly names seen ((some k, d) :: ms)
  | unknown {seen : List String} {k : String} {d : Doc} {ms : List (Option String × Doc)} (unknown : k ∉ names)
      (whole : d.isWhole = true) (rest : Orderly names seen ms) : Orderly names seen ((some k, d) :: ms)

theorem Orderly.not_mem (h : Orderly names seen ms) (hseen : name ∈ seen) (hname : name ∈ names) (d : Doc) :
    (some name, d) ∉ ms := by
  induction h with
  | nil seen => exact List.not_mem_nil
  | known isKnown isNew e rest ih =>
    rw [List.mem_cons, not_or]
    exact ⟨fun heq => isNew (by cases heq; exact hseen), ih (List.mem_cons_of_mem _ hseen)⟩
  | unknown unknown whole rest ih =>
    rw [List.mem_cons, not_or]
    exact ⟨fun heq => unknown (by cases heq; exact hname), ih hseen⟩

theorem member?_cons (k : String) (e : Doc) (ms : List (Option String × Doc)) (name : String) :
    Doc.member? ((some k, e) :: ms) name = if k = name then some e else Doc.member? ms name := by
  rw [Doc.member?, List.find?_cons]
  by_cases hk : k = name
  · simp [hk]
  · simp only [Option.some_beq_some, beq_eq_false_iff_ne.mpr hk, if_neg hk]
    rfl

/-- Where names are known once, what stands under a name is found there. -/
theorem Orderly.member?_eq_some (h : Orderly names seen ms) (hname : name ∈ names) :
    Doc.member? ms name = some d ↔ (some name, d) ∈ ms := by
  induction h with
  | nil seen => simp [Doc.member?]
  | @known seen k ms isKnown isNew e rest ih =>
    rw [member?_cons, List.mem_cons]
    by_cases hk : k = name
    · subst hk
      have hnot := rest.not_mem List.mem_cons_self hname d
      simp [hnot, eq_comm]
    · simp [hk, Ne.symm hk, ih]
  | @unknown seen k e ms unknown whole rest ih =>
    have hk : k ≠ name := fun heq => unknown (heq ▸ hname)
    rw [member?_cons, List.mem_cons]
    simp [hk, Ne.symm hk, ih]

theorem MembersRecast.orderly_iff (h : MembersRecast R names ms ms') : Orderly names seen ms ↔ Orderly names seen ms' := by
  induction h generalizing seen with
  | nil => exact Iff.rfl
  | known isKnown alters rest ih =>
    constructor
    · rintro (_ | ⟨-, isNew, _, rest⟩ | ⟨unknown, -, -⟩)
      · exact .known isKnown isNew _ (ih.mp rest)
      · exact absurd isKnown unknown
    · rintro (_ | ⟨-, isNew, _, rest⟩ | ⟨unknown, -, -⟩)
      · exact .known isKnown isNew _ (ih.mpr rest)
      · exact absurd isKnown unknown
  | unknown unknown whole rest ih =>
    constructor
    · rintro (_ | ⟨isKnown, -, _, -⟩ | ⟨unknown', isWhole, rest⟩)
      · exact absurd rfl (unknown _ isKnown)
      · exact .unknown unknown' (whole ▸ isWhole) (ih.mp rest)
    · rintro (_ | ⟨isKnown, -, _, -⟩ | ⟨unknown', isWhole, rest⟩)
      · exact absurd rfl (unknown _ isKnown)
      · exact .unknown unknown' (whole ▸ isWhole) (ih.mpr rest)
  | inserted unknown whole rest ih =>
    constructor
    · exact fun h => .unknown unknown whole (ih.mp h)
    · rintro (_ | ⟨isKnown, -, _, -⟩ | ⟨-, -, rest⟩)
      · exact absurd isKnown unknown
      · exact ih.mpr rest

/-- What is found for a known name is altered, or lacks on both sides. -/
theorem MembersRecast.member? (h : MembersRecast R names ms ms') (hname : name ∈ names) :
    Option.Rel (R name) (Doc.member? ms name) (Doc.member? ms' name) := by
  induction h with
  | nil => exact .none
  | @known k d d' ms ms' isKnown alters rest ih =>
    rw [member?_cons, member?_cons]
    by_cases hk : k = name
    · rw [if_pos hk, if_pos hk]
      exact .some (hk ▸ alters)
    · rw [if_neg hk, if_neg hk]
      exact ih
  | @unknown key d d' ms ms' unknown whole rest ih =>
    have hskip (e : Doc) (ms : List (Option String × Doc)) : Doc.member? ((key, e) :: ms) name = Doc.member? ms name := by
      rw [Doc.member?, List.find?_cons_of_neg (by simpa using unknown name hname), Doc.member?]
    rw [hskip, hskip]
    exact ih
  | @inserted k d ms ms' unknown whole rest ih =>
    rw [member?_cons, if_neg fun hk : k = name => unknown (hk ▸ hname)]
    exact ih

theorem PositionsRecast.length (h : PositionsRecast R names ds ds') : ds'.length = ds.length := by
  induction h with
  | nil names => rfl
  | known alters rest ih => rw [List.length_cons, List.length_cons, ih]
  | beyond ds => rfl

theorem PositionsRecast.find? (h : PositionsRecast R names ds ds') (name : String) : Option.Rel (R name)
    (((names.zip ds).find? (·.1 == name)).map (·.2)) (((names.zip ds').find? (·.1 == name)).map (·.2)) := by
  induction h with
  | nil names => rw [List.zip_nil_right]; exact .none
  | @known k names d d' ds ds' alters rest ih =>
    rw [List.zip_cons_cons, List.zip_cons_cons, List.find?_cons, List.find?_cons]
    by_cases hk : k = name
    · simp only [hk, beq_self_eq_true]
      exact .some (hk ▸ alters)
    · simp only [beq_eq_false_iff_ne.mpr hk]
      exact ih
  | beyond ds => exact .none

theorem Recast.field? (h : Recast R names d d') (hname : name ∈ names) :
    Option.Rel (R name) (d.field? names name) (d'.field? names name) := by
  cases h with
  | members recast => exact recast.member? hname
  | positions recast => exact recast.find? name

namespace Fields
variable {fs : Fields α} {a : α} {checks : List Check}

/-- Against distinct names, a member that is known is visited by the check of its name. -/
theorem visit_known {c : Check} (hnamed : ∀ c ∈ checks, c.aliases = []) (hnodup : (checks.map (·.name)).Nodup)
    (hc : c ∈ checks) : visit checks o seen ((some c.name, d) :: ms) = .ok () ↔
      c.name ∉ seen ∧ c.run o d = .ok () ∧ visit checks o (c.name :: seen) ms = .ok () := by
  have hfind : checks.find? (·.answersTo c.name) = some c := by
    cases hfind : checks.find? (·.answersTo c.name) with
    | none => exact absurd (List.find?_eq_none.mp hfind c hc) (by simp [Check.answersTo])
    | some c' =>
      have hc' : c' ∈ checks := List.mem_of_find?_eq_some hfind
      have hname : c'.name = c.name := by simpa [Check.answersTo, hnamed c' hc'] using List.find?_some hfind
      rw [List.inj_on_of_nodup_map hnodup hc' hc hname]
  rw [visit, hfind]
  by_cases hnew : c.name ∈ seen
  · simp [hnew]
  · simp only [List.contains_iff_mem, hnew, if_false, not_false_iff, true_and]
    constructor
    · intro h
      obtain ⟨u, hrun, hvisit⟩ := bind_eq_ok.mp h
      exact ⟨hrun, hvisit⟩
    · rintro ⟨hrun, hvisit⟩
      exact bind_eq_ok.mpr ⟨(), hrun, hvisit⟩

theorem visit_unknown {k : String} (hnamed : ∀ c ∈ checks, c.aliases = []) (hk : k ∉ checks.map (·.name)) :
    visit checks o seen ((some k, d) :: ms) = .ok () ↔ d.isWhole = true ∧ visit checks o seen ms = .ok () := by
  have hfind : checks.find? (·.answersTo k) = none := List.find?_eq_none.mpr fun c hc hanswers =>
    hk (List.mem_map.mpr ⟨c, hc, by simpa [Check.answersTo, hnamed c hc] using hanswers⟩)
  rw [visit, hfind]
  cases d.isWhole <;> simp

theorem visit_eq_ok_iff (hnamed : ∀ c ∈ checks, c.aliases = []) (hnodup : (checks.map (·.name)).Nodup) :
    visit checks o seen ms = .ok () ↔ Orderly (checks.map (·.name)) seen ms ∧
      ∀ c ∈ checks, ∀ d, (some c.name, d) ∈ ms → c.run o d = .ok () := by
  induction ms generalizing seen with
  | nil => simpa [visit] using Orderly.nil seen
  | cons m ms ih =>
    obtain ⟨_ | k, e⟩ := m
    · constructor
      · intro h; cases h
      · rintro ⟨h, -⟩; cases h
    · by_cases hknown : k ∈ checks.map (·.name)
      · obtain ⟨c, hc, rfl⟩ := List.mem_map.mp hknown
        rw [visit_known hnamed hnodup hc, ih]
        constructor
        · rintro ⟨hnew, hrun, horderly, hruns⟩
          refine ⟨.known hknown hnew e horderly, fun c' hc' d hmem => ?_⟩
          obtain heq | hmem := List.mem_cons.mp hmem
          · obtain ⟨hsame, rfl⟩ := Prod.mk.inj heq
            cases List.inj_on_of_nodup_map hnodup hc' hc (Option.some.inj hsame)
            exact hrun
          · exact hruns c' hc' d hmem
        · rintro ⟨_ | ⟨-, hnew, _, horderly⟩ | ⟨hunknown, -, -⟩, hruns⟩
          · exact ⟨hnew, hruns c hc e List.mem_cons_self, horderly,
              fun c' hc' d hmem => hruns c' hc' d (List.mem_cons_of_mem _ hmem)⟩
          · exact absurd hknown hunknown
      · rw [visit_unknown hnamed hknown, ih]
        constructor
        · rintro ⟨hwhole, horderly, hruns⟩
          refine ⟨.unknown hknown hwhole horderly, fun c hc d hmem => ?_⟩
          obtain heq | hmem := List.mem_cons.mp hmem
          · exact absurd (List.mem_map.mpr ⟨c, hc, Option.some.inj (Prod.mk.inj heq).1⟩) hknown
          · exact hruns c hc d hmem
        · rintro ⟨_ | ⟨hknown', -, _, -⟩ | ⟨-, hwhole, horderly⟩, hruns⟩
          · exact absurd hknown' hknown
          · exact ⟨hwhole, horderly, fun c hc d hmem => hruns c hc d (List.mem_cons_of_mem _ hmem)⟩

theorem field?_cons (name : String) (names : List String) (d : Doc) (ds : List Doc) (other : String) :
    Doc.field? (name :: names) (.arr (d :: ds)) other =
      if name = other then some d else Doc.field? names (.arr ds) other := by
  rw [Doc.field?, List.zip_cons_cons, List.find?_cons]
  by_cases hname : name = other
  · simp [hname]
  · simp only [beq_eq_false_iff_ne.mpr hname, if_neg hname]
    rfl

theorem visitPositions_eq_ok_iff {checks : List Check} (hnodup : (checks.map (·.name)).Nodup) {ds : List Doc} :
    visitPositions o checks ds = .ok () ↔
      ∀ c ∈ checks, ∀ d, Doc.field? (checks.map (·.name)) (.arr ds) c.name = some d → c.run o d = .ok () := by
  induction checks generalizing ds with
  | nil => simp [visitPositions]
  | cons c cs ih =>
    obtain ⟨hnot, hrest⟩ := List.nodup_cons.mp hnodup
    cases ds with
    | nil => simp [visitPositions, Doc.field?]
    | cons d ds =>
      have hothers (c' : Check) (hc' : c' ∈ cs) : Doc.field? (c.name :: cs.map (·.name)) (.arr (d :: ds)) c'.name =
          Doc.field? (cs.map (·.name)) (.arr ds) c'.name := by
        rw [field?_cons, if_neg fun heq => hnot (List.mem_map.mpr ⟨c', hc', Eq.symm heq⟩)]
      have hfirst : Doc.field? (c.name :: cs.map (·.name)) (.arr (d :: ds)) c.name = some d := by
        rw [field?_cons, if_pos rfl]
      rw [visitPositions, bind_eq_ok, List.map_cons, List.forall_mem_cons, hfirst]
      constructor
      · rintro ⟨u, hrun, hvisit⟩
        refine ⟨fun e he => Option.some.inj he ▸ hrun, fun c' hc' e he => ?_⟩
        exact (ih hrest).mp hvisit c' hc' e (hothers c' hc' ▸ he)
      · rintro ⟨hrun, hruns⟩
        exact ⟨(), hrun d rfl, (ih hrest).mpr fun c' hc' e he => hruns c' hc' e ((hothers c' hc').trans he)⟩

theorem positionFor_eq (checks : List Check) (ds : List Doc) (c : Check) :
    positionFor checks ds c = Doc.field? (checks.map (·.name)) (.arr ds) c.name := by
  induction checks generalizing ds with
  | nil => rfl
  | cons c' cs ih =>
    cases ds with
    | nil => rfl
    | cons d ds =>
      rw [List.map_cons, field?_cons, ← ih, positionFor, List.zip_cons_cons, List.find?_cons]
      by_cases hname : c'.name = c.name
      · simp [hname]
      · simp only [beq_eq_false_iff_ne.mpr hname, if_neg hname]
        rfl

/-- A record is read from members when they are in order and it can be built from what it finds there. -/
theorem object_members_iff (hfs : fs.Plain) (hnodup : (fs.checks.map (·.name)).Nodup) {ms : List (Option String × Doc)} :
    fs.object o (.obj ms) = .ok a ↔ Orderly (fs.checks.map (·.name)) [] ms ∧
      fs.build o .members (fun c => Doc.field? (fs.checks.map (·.name)) (.obj ms) c.name) = .ok a := by
  have hbuild : fs.build o .members (memberFor ms) =
      fs.build o .members fun c => Doc.field? (fs.checks.map (·.name)) (.obj ms) c.name :=
    hfs.found (fun c hc => memberFor_eq (hfs.named c hc) ms) o .members
  rw [object, bind_eq_ok, hbuild]
  constructor
  · rintro ⟨u, hvisit, hbuilt⟩
    exact ⟨((visit_eq_ok_iff hfs.named hnodup).mp hvisit).1, hbuilt⟩
  · rintro ⟨horderly, hbuilt⟩
    refine ⟨(), (visit_eq_ok_iff hfs.named hnodup).mpr ⟨horderly, fun c hc d hmem => ?_⟩, hbuilt⟩
    exact hfs.passed hbuilt c hc d ((horderly.member?_eq_some (List.mem_map_of_mem hc)).mpr hmem)

theorem object_positions_iff (hfs : fs.Plain) (hnodup : (fs.checks.map (·.name)).Nodup) {ds : List Doc} :
    fs.object o (.arr ds) = .ok a ↔ ds.length ≤ fs.checks.length ∧
      fs.build o .positions (fun c => Doc.field? (fs.checks.map (·.name)) (.arr ds) c.name) = .ok a := by
  have hbuild : fs.build o .positions (positionFor fs.checks ds) =
      fs.build o .positions fun c => Doc.field? (fs.checks.map (·.name)) (.arr ds) c.name :=
    hfs.found (fun c _ => positionFor_eq fs.checks ds c) o .positions
  rw [object, bind_eq_ok, hbuild]
  constructor
  · rintro ⟨u, -, hlast⟩
    obtain ⟨b, hbuilt, hlast⟩ := bind_eq_ok.mp hlast
    split at hlast
    · cases hlast
      exact ⟨‹_›, hbuilt⟩
    · cases hlast
  · rintro ⟨hlength, hbuilt⟩
    refine ⟨(), (visitPositions_eq_ok_iff hnodup).mpr fun c hc d hd => hfs.passed hbuilt c hc d hd, ?_⟩
    rw [hbuilt]
    exact if_pos hlength

/-- A record that was read is built from what it has in its fields. -/
theorem exists_build (hfs : fs.Plain) (hnodup : (fs.checks.map (·.name)).Nodup) (h : fs.object o d = .ok a) :
    ∃ l, fs.build o l (fun c => d.field? (fs.checks.map (·.name)) c.name) = .ok a := by
  cases d with
  | obj ms => exact ⟨_, ((object_members_iff hfs hnodup).mp h).2⟩
  | arr ds => exact ⟨_, ((object_positions_iff hfs hnodup).mp h).2⟩
  | _ => cases h

/-- What is read from two forms of a record is built from what they have in its fields; nothing else matters. -/
theorem object_recast (hfs : fs.Plain) (hnodup : (fs.checks.map (·.name)).Nodup)
    (h : Recast R (fs.checks.map (·.name)) d d') : ∃ (P : Prop) (l : Layout), ∀ a,
      (fs.object o d = .ok a ↔ P ∧ fs.build o l (fun c => d.field? (fs.checks.map (·.name)) c.name) = .ok a) ∧
      (fs.object o d' = .ok a ↔ P ∧ fs.build o l (fun c => d'.field? (fs.checks.map (·.name)) c.name) = .ok a) := by
  cases h with
  | @members ms ms' recast =>
    refine ⟨Orderly (fs.checks.map (·.name)) [] ms, .members, fun a => ⟨object_members_iff hfs hnodup, ?_⟩⟩
    rw [recast.orderly_iff]
    exact object_members_iff hfs hnodup
  | @positions ds ds' recast =>
    refine ⟨ds.length ≤ fs.checks.length, .positions, fun a => ⟨object_positions_iff hfs hnodup, ?_⟩⟩
    rw [← recast.length]
    exact object_positions_iff hfs hnodup

/-- Where both forms can be read, more may be known of how each field differs. -/
theorem MembersRecast.imp {R' : String → Doc → Doc → Prop} (h : MembersRecast R names ms ms')
    (himp : ∀ k ∈ names, ∀ d d', (some k, d) ∈ ms → (some k, d') ∈ ms' → R k d d' → R' k d d') :
    MembersRecast R' names ms ms' := by
  induction h with
  | nil => exact .nil
  | known isKnown alters rest ih =>
    refine .known isKnown (himp _ isKnown _ _ List.mem_cons_self List.mem_cons_self alters) (ih fun k hk d d' hd hd' => ?_)
    exact himp k hk d d' (List.mem_cons_of_mem _ hd) (List.mem_cons_of_mem _ hd')
  | unknown unknown whole rest ih =>
    refine .unknown unknown whole (ih fun k hk d d' hd hd' => ?_)
    exact himp k hk d d' (List.mem_cons_of_mem _ hd) (List.mem_cons_of_mem _ hd')
  | inserted unknown whole rest ih =>
    exact .inserted unknown whole (ih fun k hk d d' hd hd' => himp k hk d d' hd (List.mem_cons_of_mem _ hd'))

theorem PositionsRecast.imp {R' : String → Doc → Doc → Prop} {checks : List Check}
    (h : PositionsRecast R (checks.map (·.name)) ds ds') (hread : visitPositions o checks ds = .ok ())
    (hread' : visitPositions o checks ds' = .ok ()) (himp : ∀ c ∈ checks, ∀ d d', R c.name d d' →
      c.run o d = .ok () → c.run o d' = .ok () → R' c.name d d') : PositionsRecast R' (checks.map (·.name)) ds ds' := by
  induction checks generalizing ds ds' with
  | nil => cases h <;> first | exact .nil _ | exact .beyond _
  | cons c cs ih =>
    cases h with
    | nil => exact .nil _
    | known alters rest =>
      obtain ⟨hc, hcs⟩ := List.forall_mem_cons.mp himp
      obtain ⟨u, hrun, hrest⟩ := bind_eq_ok.mp hread
      obtain ⟨u', hrun', hrest'⟩ := bind_eq_ok.mp hread'
      exact .known (hc _ _ alters hrun hrun') (ih rest hrest hrest' hcs)

theorem Recast.imp {R' : String → Doc → Doc → Prop} {a a' : α} (hfs : fs.Plain)
    (hnodup : (fs.checks.map (·.name)).Nodup) (h : Recast R (fs.checks.map (·.name)) d d')
    (hread : fs.object o d = .ok a) (hread' : fs.object o d' = .ok a') (himp : ∀ c ∈ fs.checks, ∀ d d', R c.name d d' →
      c.run o d = .ok () → c.run o d' = .ok () → R' c.name d d') : Recast R' (fs.checks.map (·.name)) d d' := by
  cases h with
  | members recast =>
    obtain ⟨u, hvisit, -⟩ := bind_eq_ok.mp hread
    obtain ⟨u', hvisit', -⟩ := bind_eq_ok.mp hread'
    obtain ⟨-, hruns⟩ := (visit_eq_ok_iff hfs.named hnodup).mp hvisit
    obtain ⟨-, hruns'⟩ := (visit_eq_ok_iff hfs.named hnodup).mp hvisit'
    refine .members (MembersRecast.imp recast fun k hk d d' hd hd' alters => ?_)
    obtain ⟨c, hc, rfl⟩ := List.mem_map.mp hk
    exact himp c hc d d' alters (hruns c hc d hd) (hruns' c hc d' hd')
  | positions recast =>
    obtain ⟨u, hvisit, -⟩ := bind_eq_ok.mp hread
    obtain ⟨u', hvisit', -⟩ := bind_eq_ok.mp hread'
    exact .positions (PositionsRecast.imp recast hvisit hvisit' himp)

end Fields
end Decode
end Outreach
