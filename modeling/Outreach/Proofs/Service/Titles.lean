import Outreach.Proofs.Service.Upkeep
import Outreach.Proofs.Text.Segments

/-! Names of automations that nobody edits. They are given once, without white space around them, and stay as they are
through all that is done beside. -/
namespace Outreach
open Database Text

structure IsTitle (name : String) : Prop where
  trimmed : trim name = name
  nonempty : name.isEmpty = false

theorem Text.trim_trim (s : String) : trim (trim s) = trim s := by
  obtain ⟨-, -, -, -, -, hhead, hlast⟩ := isTrimmed_trimChars s.toList
  have hinner : IsTrimmed (trimChars s.toList) (trimChars s.toList) :=
    ⟨[], [], (List.append_nil _).symm, List.forall_mem_nil _, List.forall_mem_nil _, hhead, hlast⟩
  rw [trim, trim, String.toList_ofList, isTrimmed_iff.mp hinner]

theorem isTitle_trim {s : String} (h : (trim s).isEmpty = false) : IsTitle (trim s) := ⟨trim_trim s, h⟩

def Request.Spares (id : Uuid) : Request → Prop
  | .createAutomation a => IsTitle a.name
  | .updateAutomation a => a.id = id → IsTitle a.name
  | _ => True

def Terms.sparing (id : Uuid) : Terms := ⟨Request.Spares id, fun _ _ => True⟩

theorem Request.KeepsGraphs.spares {r : Request} (h : r.KeepsGraphs) (id : Uuid) : r.Spares id := by
  cases r <;> first | exact trivial | exact h.elim

def Operation.Spares (id : Uuid) : Operation → Prop
  | .update a => a.id ≠ id
  | _ => True

def Database.Titled (id : Uuid) (db : Database) : Prop := ∀ r ∈ db.automations, r.id = id.text → IsTitle r.name

namespace Database
variable {db db' : Database} {a : Automation} {id : Uuid}

theorem Titled.of_automations (h : db.Titled id) (hsame : db'.automations = db.automations) : db'.Titled id := by
  rwa [Titled, hsame]

theorem Titled.sameGraphs (h : db.Titled id) (hsame : db.SameGraphs db') : db'.Titled id := by
  intro r' hr' hid
  have hmem : r'.uncounted ∈ db.automations.map AutomationRow.uncounted := hsame ▸ List.mem_map_of_mem hr'
  obtain ⟨r, hr, hcells⟩ := List.mem_map.mp hmem
  have hname : r.name = r'.name := congrArg (·.name) hcells
  have hsameId : r.id = r'.id := congrArg (·.id) hcells
  exact hname ▸ h r hr (hsameId.trans hid)

theorem Titled.createAutomation (h : db.Titled id) (ha : IsTitle a.name) (hmade : db.createAutomation a = .ok db') :
    db'.Titled id := by
  unfold Database.createAutomation at hmade
  split at hmade
  · cases hmade
  · cases hmade
    exact List.forall_mem_append.mpr ⟨h, List.forall_mem_singleton.mpr fun _ => ha⟩

theorem Titled.updateAutomation (h : db.Titled id) (ha : a.id = id → IsTitle a.name)
    (hupdate : db.updateAutomation a = .ok db') : db'.Titled id := by
  unfold Database.updateAutomation at hupdate
  split at hupdate
  · rename_i rows hrows
    cases hupdate
    have hrows : db.automations.map _ = rows := congrArg Prod.snd hrows
    intro r' hr' hid
    obtain ⟨r, hr, rfl⟩ := List.mem_map.mp (hrows ▸ hr')
    split at hid
    · rename_i hown
      have hsame : a.id = id := Uuid.text_inj.mp ((beq_iff_eq.mp hown).symm.trans hid)
      rw [if_pos hown]
      exact ha hsame
    · rename_i hother
      rw [if_neg hother]
      exact h r hr hid
  · cases hupdate

theorem Titled.setStatus (h : db.Titled id) (other : Uuid) (status : AutomationStatus) :
    (db.setStatus other status).2.Titled id := by
  intro r' hr' hid
  obtain ⟨r, hr, rfl⟩ := List.mem_map.mp hr'
  split at hid
  · rw [if_pos ‹_›]
    exact h r hr hid
  · rw [if_neg ‹_›]
    exact h r hr hid

theorem Titled.deleteAutomation (h : db.Titled id) (other : Uuid) : (db.deleteAutomation other).2.Titled id :=
  fun r hr => h r (List.mem_of_mem_filter hr)

theorem Titled.isTitle (h : db.Titled id) {r : AutomationRow} (hr : r ∈ db.automations) (hid : r.id = id.text)
    (hread : r.read = .ok a) : IsTitle a.name :=
  (AutomationRow.holds_of_read hread).name ▸ h r hr hid

end Database

namespace Management
variable {c : Terms} {l : List Exchange} {x : Except ManagementError Automation} {id : Uuid}

theorem checkGraph_meets (a : Automation) : Attempt.Meets c (fun _ => True) (checkGraph a) := by
  unfold checkGraph
  split
  · exact Attempt.meets_throw
  · exact Attempt.meets_pure trivial

/-- What is created has the name that was given, without the white space around it. -/
theorem create_spares {user : Uuid} {new : NewAutomation} (h : (create user new).Yields l x) :
    ∀ e ∈ l, e.request.Spares id := by
  cases hname : (trim new.name).isEmpty with
  | true =>
    simp only [create, hname, if_true] at h
    obtain ⟨rfl, -⟩ := h
    exact List.forall_mem_nil _
  | false =>
    simp only [create, hname, Bool.false_eq_true, if_false] at h
    have hone {r : Request} (hr : r.Spares id) : (Program.request r).Meets (.sparing id) fun _ => True :=
      Program.meets_request hr fun _ _ => trivial
    refine (Attempt.Meets.of_yields (c := .sparing id) (P := fun _ => True) ?_ h fun _ _ => trivial).1
    refine Attempt.meets_bind (Attempt.meets_always (hone trivial)) fun stamp _ => ?_
    refine Attempt.meets_bind (checkGraph_meets _) fun _ _ => ?_
    refine Attempt.meets_bind (Attempt.meets_of_trivial (hone ?_)) fun _ _ => Attempt.meets_pure trivial
    exact isTitle_trim hname

theorem importText_spares {user : Uuid} {document : String} :
    (importText user document).Yields l x → ∀ e ∈ l, e.request.Spares id := by
  unfold importText
  cases Decode.ofText NewAutomation.decode document with
  | ok new => exact create_spares
  | error e =>
    rintro ⟨rfl, -⟩
    exact List.forall_mem_nil _

theorem delete_meets (h : c.asks (.deleteAutomation id)) : Attempt.Meets c (fun _ => True) (delete id) := by
  have hone : (Program.request (.deleteAutomation id)).Meets c fun _ => True :=
    Program.meets_request h fun _ _ => trivial
  refine Attempt.meets_bind (Attempt.meets_of_trivial hone) fun found _ => ?_
  split
  · exact Attempt.meets_pure trivial
  · exact Attempt.meets_throw

end Management

namespace Operation
variable {around : Surroundings} {l : List Exchange} {done : Bool} {id : Uuid}

inductive Captured : List Exchange → Prop where
  | mk {found : List Automation} {a : Automation} (listed : a ∈ found) (webhookId : String) (body : Json)
    (x : Except RepositoryError Unit) :
    Captured [⟨.listAutomations .all, .ok found⟩, ⟨.updateAutomation (a.captureSample webhookId body), x⟩]

theorem spares_or_captured {o : Operation} (ho : o.Spares id) :
    (o.program around).Yields l done → (∀ e ∈ l, e.request.Spares id) ∨ Captured l := by
  have hkeeps (hl : ∀ e ∈ l, e.request.KeepsGraphs) : (∀ e ∈ l, e.request.Spares id) ∨ Captured l :=
    .inl fun e he => (hl e he).spares id
  have hspares {ε α : Type} {p : Attempt ε α} (hp : ∀ x, p.Yields l x → ∀ e ∈ l, e.request.Spares id) :
      (succeeds p).Yields l done → (∀ e ∈ l, e.request.Spares id) ∨ Captured l := by
    intro h
    obtain ⟨x, hx, -⟩ := succeeds_yields.mp h
    exact .inl (hp x hx)
  have hmeets {ε α : Type} {p : Attempt ε α} (hp : Attempt.Meets (.sparing id) (fun _ => True) p) :
      (succeeds p).Yields l done → (∀ e ∈ l, e.request.Spares id) ∨ Captured l :=
    hspares fun _ hx => (hp.of_yields hx fun _ _ => trivial).1
  cases o with
  | create user new => exact hspares fun _ => Management.create_spares
  | importText user document => exact hspares fun _ => Management.importText_spares
  | update a => exact hmeets (Management.update_meets fun hid => absurd hid ho)
  | setStatus target status => exact hmeets (Management.setStatus_meets target status trivial trivial)
  | delete target => exact hmeets (Management.delete_meets trivial)
  | run f resumeFrom =>
    exact hspares fun x hx e he => ((RunFrame.run_yields_iff.mp hx).isFiring e he).keepsGraphs.spares id
  | occasion o =>
    intro h
    obtain ⟨u, l₁, l₂, rfl, hu, rfl, -⟩ := Program.yields_bind.mp h
    rw [List.append_nil] at hkeeps ⊢
    cases o with
    | event event contactId scope =>
      obtain ⟨x, l₃, l₄, rfl, hx, rfl, -⟩ := Program.yields_bind.mp hu
      rw [List.append_nil] at hkeeps ⊢
      exact hkeeps ((fire_graphs _ _ event contactId scope).of_yields hx fun _ _ => trivial).1
    | call webhookId body =>
      obtain ⟨x, l₃, l₄, rfl, hx, rfl, -⟩ := Program.yields_bind.mp hu
      rw [List.append_nil] at hkeeps ⊢
      obtain ⟨found, a, saved, hfound, -, rfl⟩ | hgraphs := (Intake.handle_yields_iff.mp hx).captures_or_keeps
      · exact .inr ⟨List.mem_of_find?_eq_some hfound, webhookId, body, saved⟩
      · exact hkeeps hgraphs
    | notification n =>
      obtain ⟨x, l₃, l₄, rfl, hx, rfl, -⟩ := Program.yields_bind.mp hu
      rw [List.append_nil] at hkeeps ⊢
      exact hkeeps ((inbox_graphs _ _ n).of_yields hx fun _ _ => trivial).1
    | sweep =>
      obtain ⟨x, l₃, l₄, rfl, hx, rfl, -⟩ := Program.yields_bind.mp hu
      rw [List.append_nil] at hkeeps ⊢
      exact hkeeps ((sweep_graphs _ _).of_yields hx fun _ _ => trivial).1

end Operation

namespace Service
variable {around : Surroundings} {s s' : Service} {r : Request} {x : r.Reply} {l : List Exchange} {id : Uuid}

theorem Answers.titled (h : Answers around r s x s') (hs : s.db.Titled id) (hr : r.Spares id) : s'.db.Titled id := by
  have hkeeps (hkeeps : r.KeepsGraphs) : s'.db.Titled id := hs.sameGraphs (h.sameGraphs hkeeps)
  have hwriting {y : Except RepositoryError Database} {x : Except RepositoryError Unit} {clock : Instant} {seed : Nat}
      (h : Service.writing { s with clock := clock, seed := seed } y = (x, s'))
      (hy : ∀ db, y = .ok db → db.Titled id) : s'.db.Titled id := by
    cases x with
    | error e =>
      rw [writing_eq_error h]
      exact hs
    | ok _ =>
      obtain ⟨db, hdb, rfl⟩ := writing_eq_ok h
      exact hy db hdb
  cases r with
  | createAutomation a =>
    obtain ⟨clock, network, seed, h⟩ := h
    exact hwriting h fun _ => hs.createAutomation hr
  | updateAutomation a =>
    obtain ⟨clock, network, seed, h⟩ := h
    exact hwriting h fun _ => hs.updateAutomation hr
  | setStatus other status =>
    obtain ⟨clock, network, seed, h⟩ := h
    cases h
    exact hs.setStatus other status
  | deleteAutomation other =>
    obtain ⟨clock, network, seed, h⟩ := h
    cases h
    exact hs.deleteAutomation other
  | _ => exact hkeeps trivial

theorem Plays.titled (h : Plays around s l s') (hs : s.db.Titled id) (hl : ∀ e ∈ l, e.request.Spares id) :
    s'.db.Titled id := by
  induction h with
  | nil s => exact hs
  | answered answers rest ih =>
    obtain ⟨he, hl⟩ := List.forall_mem_cons.mp hl
    exact ih (answers.titled hs he) hl
  | failed fault rest ih => exact ih hs (List.forall_mem_cons.mp hl).2
  | outside outside rest ih => exact ih hs (List.forall_mem_cons.mp hl).2
  | elsewhere leaves answers rest ih => exact ih (hs.of_automations (answers.automations leaves)) hl

/-- With a sample the automation is written under the name that it was listed with. -/
theorem Plays.titled_of_captured (h : Plays around s l s') (hcaptured : Operation.Captured l) (hdb : s.db.Identified)
    (hs : s.db.Titled id) : s'.db.Titled id := by
  obtain ⟨listed, webhookId, body, x⟩ := hcaptured
  obtain ⟨s₁, s₂, hbefore, heffect, hrest⟩ := h.head
  obtain hanswers | ⟨⟨fault, hfault⟩ | houtside, -⟩ := heffect
  · obtain ⟨hlist, hsame⟩ := hanswers.listAutomations
    have hs₁ := hs.of_automations hbefore
    have hdb₁ : s₁.db.Identified := hdb.of_ids (hbefore ▸ List.Sublist.refl _)
    refine hrest.titled (hs₁.of_automations (congrArg _ hsame)) (List.forall_mem_singleton.mpr fun hid => ?_)
    obtain ⟨r, hr, hread⟩ := exists_row hlist listed
    have htitle := hs₁.isTitle hr ((hdb₁.id_of_read hr hread).trans (congrArg Uuid.text hid)) hread
    exact htitle
  · cases hfault
  · exact houtside.elim

/-- A service whose table of automations was empty once, and in which everything was done but edits of this automation. -/
inductive Unedited (around : Surroundings) (id : Uuid) : Service → Prop where
  | empty {s : Service} (none : s.db.automations = []) : Unedited around id s
  | operation {s s' : Service} {o : Operation} {done : Bool} (unedited : Unedited around id s) (spares : o.Spares id)
    (undergoes : Undergoes around o done s s') : Unedited around id s'
  | elsewhere {s s' : Service} (unedited : Unedited around id s) (same : s'.db.automations = s.db.automations) :
    Unedited around id s'

theorem Unedited.kept (h : Unedited around id s) : Kept around s := by
  induction h with
  | empty none => exact .empty none
  | operation unedited spares undergoes ih => exact .operation ih undergoes
  | elsewhere unedited same ih => exact .elsewhere ih same

theorem Unedited.titled (h : Unedited around id s) : s.db.Titled id := by
  induction h with
  | empty none =>
    rw [Titled, none]
    exact List.forall_mem_nil _
  | operation unedited spares undergoes ih =>
    obtain ⟨l, hyields, hplays⟩ := undergoes
    obtain hspares | hcaptured := Operation.spares_or_captured spares hyields
    · exact hplays.titled ih hspares
    · exact hplays.titled_of_captured hcaptured unedited.kept.sound.identified ih
  | elsewhere unedited same ih => exact ih.of_automations same

end Service
end Outreach
