import Outreach.Proofs.Automation.Stats
import Outreach.Engine.Run
import Outreach.Proofs.Engine.Exchange
import Outreach.Proofs.Service.Answers

/-! What a log of exchanges leaves in a service that has part in it. The counters of an automation change by the merges
of the log and by nothing else. -/
namespace Outreach

def Request.LeavesAutomations : Request → Prop
  | .createAutomation _ | .updateAutomation _ | .setStatus .. | .mergeStats .. | .deleteAutomation _ => False
  | _ => True

def Request.IsOutside : Request → Prop
  | .sendText .. | .sendTemplate .. | .sendFlow .. | .listTemplates .. | .sendHttp .. => True
  | .now | .pick _ | .freshToken | .freshIdentity => True
  | _ => False

namespace Database

def storedStats? (db : Database) (id : Uuid) : Option (Stored.Read ExecutionStats) :=
  (db.automations.find? (·.id == id.text)).map AutomationRow.stats

variable {db db' : Database}

theorem updateContact_automations {id : Int} {p : ContactPatch} (h : db.updateContact id p = .ok db') :
    db'.automations = db.automations := by
  unfold updateContact at h
  split at h
  · cases h
  · rename_i r _
    cases hr : r.read with
    | error e => rw [hr] at h; cases h
    | ok old =>
      rw [hr] at h
      simp only [bind, Except.bind] at h
      split at h
      · cases h
        rfl
      · split at h <;> cases h
        rfl

/-- A change of rows does not touch what they are looked up by. -/
theorem find?_change {α : Type} {p q : α → Bool} {g : α → α} (hg : ∀ a, q (g a) = q a) (rows : List α) :
    (change p g rows).2.find? q = (rows.find? q).map fun a => if p a then g a else a := by
  have hsame : (q ∘ fun a => if p a then g a else a) = q := by
    funext a
    simp only [Function.comp_apply]
    split
    · exact hg a
    · rfl
  rw [change, List.find?_map, hsame]

/-- A merge that went well has read the counters, and adds to them. -/
theorem mergeStats_stored {id : Uuid} {delta : ExecutionStats} (hdelta : Keyed.Ascending delta)
    (h : db.mergeStats id delta = .ok db') : ∃ old, db.storedStats? id = some (.ok old) ∧
      ((∀ n, ((old.counters n).add (delta.counters n)).Fits) →
        ∃ new, db'.storedStats? id = some (.ok new) ∧ ∀ n, new.counters n = (old.counters n).add (delta.counters n)) := by
  unfold mergeStats at h
  split at h
  · cases h
  · rename_i r hfind
    cases hr : r.stats with
    | error e => rw [hr] at h; cases h
    | ok old =>
      rw [hr] at h
      cases h
      refine ⟨old, by rw [storedStats?, hfind, Option.map_some, hr], fun hfits => ?_⟩
      have hold : Keyed.Ascending old := by
        rw [AutomationRow.stats, Stored.document] at hr
        split at hr
        · cases hr
          exact ExecutionStats.ofText_ascending ‹_›
        · cases hr
      have hnew : ∀ n, ((old.merge delta).counters n).Fits := fun n => by
        rw [ExecutionStats.counters_merge old hdelta]
        exact hfits n
      refine ⟨old.merge delta, ?_, ExecutionStats.counters_merge old hdelta⟩
      have hrow := find?_change (p := fun r : AutomationRow => r.id == id.text) (q := fun r => r.id == id.text)
        (g := fun r => { r with executionStats := (old.merge delta).encode.text }) (fun _ => rfl) db.automations
      have htext := ExecutionStats.ofText_encode (ExecutionStats.merge_ascending hold delta) hnew
      dsimp only [change] at hrow
      rw [storedStats?, hrow, hfind, Option.map_some, Option.map_some, if_pos (List.find?_some hfind), AutomationRow.stats,
        Stored.document, htext]

end Database

namespace Service
open Database

variable {around : Surroundings} {s s' : Service} {db db' : Database} {rows : List AutomationRow}

theorem createContact_automations {now : Instant} {c : NewContact} {contact : Contact}
    (h : db.createContact now c = .ok (contact, db')) : db'.automations = db.automations := by
  unfold createContact at h
  dsimp only at h
  split at h <;> cases h
  rfl

theorem insertTask_automations {now : Instant} {t : NewTask} {id : Int} (h : db.insertTask now t = .ok (id, db')) :
    db'.automations = db.automations := by
  unfold insertTask at h
  split at h <;> cases h
  rfl

theorem storing_automations {α : Type} {y : Except RepositoryError (α × Database)} (hs : s.db.automations = rows)
    (h : ∀ a db, y = .ok (a, db) → db.automations = rows) : (s.storing y).2.db.automations = rows := by
  cases y with
  | ok y => exact h y.1 y.2 rfl
  | error e => exact hs

theorem answer_automations {r : Request} (h : r.LeavesAutomations) :
    (answer around r s).2.db.automations = s.db.automations := by
  cases r with
  | createAutomation _ | updateAutomation _ | setStatus _ _ | mergeStats _ _ | deleteAutomation _ => exact h.elim
  | updateContact id p =>
    rw [answer, writing]
    cases hp : s.db.updateContact id p with
    | error e => rfl
    | ok db => exact updateContact_automations hp
  | createContact c =>
    have hdb := congrArg Database.automations (tick_db s)
    exact storing_automations hdb fun _ _ hc => (createContact_automations hc).trans hdb
  | insertTask t =>
    have hdb := congrArg Database.automations (tick_db s)
    exact storing_automations hdb fun _ _ ht => (insertTask_automations ht).trans hdb
  | updateTask id status error =>
    simp only [answer, updateTask]
    split <;> rfl
  | saveBoard b =>
    simp only [answer, saveBoard]
    split <;> rfl
  | createConnection c => simp only [answer, tick, freshId, keeping, createConnection]
  | pick n =>
    obtain ⟨m, seed, hdraw⟩ := draw_eq (s := s) n
    rw [answer, hdraw]
  | now => simp only [answer, tick]
  | freshToken => simp only [answer, freshId]
  | freshIdentity => simp only [answer, tick, freshId]
  | _ => rfl

/-- The exchanges take place one after the other: calls of the storage are answered by the service, or fail without
effect, and what is not asked of the database is answered in any way. Beside them others may ask for what leaves
automations alone. -/
inductive Plays (around : Surroundings) : Service → List Exchange → Service → Prop where
  | nil (s : Service) : Plays around s [] s
  | answered {s₁ s₂ s₃ : Service} {e : Exchange} {l : List Exchange} (answers : Answers around e.request s₁ e.reply s₂)
    (rest : Plays around s₂ l s₃) : Plays around s₁ (e :: l) s₃
  | failed {s₁ s₂ : Service} {e : Exchange} {l : List Exchange} (fault : e.request.IsFault e.reply)
    (rest : Plays around s₁ l s₂) : Plays around s₁ (e :: l) s₂
  | outside {s₁ s₂ : Service} {e : Exchange} {l : List Exchange} (outside : e.request.IsOutside)
    (rest : Plays around s₁ l s₂) : Plays around s₁ (e :: l) s₂
  | elsewhere {s₁ s₂ s₃ : Service} {l : List Exchange} {r : Request} {x : r.Reply} (leaves : r.LeavesAutomations)
    (answers : Answers around r s₁ x s₂) (rest : Plays around s₂ l s₃) : Plays around s₁ l s₃

def holding (f : RunFrame) : Service :=
  .new ⟨[.ofAutomation f.automation], [.ofContact f.contact], [.ofConnection f.connection], [], [], 1, 0⟩
    f.contact.createdAt 0

/-- A program that the service runs has its log take place there. -/
theorem exists_plays {α : Type} {p : Program α} {a : α} (h : p.run (answer around) s = some (a, s')) :
    ∃ l, p.Yields l a ∧ Plays around s l s' := by
  induction p generalizing s with
  | done b =>
    cases h
    exact ⟨[], ⟨rfl, rfl⟩, .nil _⟩
  | ask r next ih =>
    obtain ⟨l, hl, hplays⟩ := ih _ h
    exact ⟨⟨r, _⟩ :: l, ⟨_, l, rfl, hl⟩, .answered ⟨s.clock, around.network, s.seed, rfl⟩ hplays⟩
  | endless => cases h

theorem Answers.automations {r : Request} {x : r.Reply} (h : Answers around r s x s') (hr : r.LeavesAutomations) :
    s'.db.automations = s.db.automations := by
  obtain ⟨clock, network, seed, h⟩ := h
  have hanswer := @answer_automations { around with network := network } { s with clock := clock, seed := seed } r hr
  rwa [h] at hanswer

/-- Until others ask for more, what leaves automations alone leaves them as they were. -/
theorem Plays.automations {l : List Exchange} (h : Plays around s l s')
    (hl : ∀ e ∈ l, e.request.LeavesAutomations) : s'.db.automations = s.db.automations := by
  induction h with
  | nil s => rfl
  | answered answers rest ih =>
    obtain ⟨he, hl⟩ := List.forall_mem_cons.mp hl
    exact (ih hl).trans (answers.automations he)
  | failed fault rest ih => exact ih (List.forall_mem_cons.mp hl).2
  | outside outside rest ih => exact ih (List.forall_mem_cons.mp hl).2
  | elsewhere leaves answers rest ih => exact (ih hl).trans (answers.automations leaves)

theorem Answers.merge {id : Uuid} {delta : ExecutionStats} (h : Answers around (.mergeStats id delta) s (.ok ()) s') :
    s.db.mergeStats id delta = .ok s'.db := by
  obtain ⟨clock, network, seed, h⟩ := h
  simp only [answer, writing] at h
  cases hmerge : s.db.mergeStats id delta with
  | error e => rw [hmerge] at h; cases h
  | ok db => rw [hmerge] at h; cases h; rfl

/-- The first exchange: it is answered, or it is without effect. -/
theorem Plays.head {e : Exchange} {l : List Exchange} (h : Plays around s (e :: l) s') : ∃ s₁ s₂ : Service, s₁.db.automations = s.db.automations ∧
    (Answers around e.request s₁ e.reply s₂ ∨ (e.request.IsFault e.reply ∨ e.request.IsOutside) ∧ s₂ = s₁) ∧
    Plays around s₂ l s' := by
  generalize hlog : e :: l = log at h
  induction h with
  | nil s => cases hlog
  | answered answers rest ih =>
    cases hlog
    exact ⟨_, _, rfl, .inl answers, rest⟩
  | failed fault rest ih =>
    cases hlog
    exact ⟨_, _, rfl, .inr ⟨.inl fault, rfl⟩, rest⟩
  | outside outside rest ih =>
    cases hlog
    exact ⟨_, _, rfl, .inr ⟨.inr outside, rfl⟩, rest⟩
  | elsewhere leaves answers rest ih =>
    obtain ⟨s₁, s₂, hbefore, heffect, hrest⟩ := ih hlog
    exact ⟨s₁, s₂, hbefore.trans (answers.automations leaves), heffect, hrest⟩

theorem Plays.split {l l' : List Exchange} (h : Plays around s (l ++ l') s')
    (hl : ∀ e ∈ l, e.request.LeavesAutomations) :
    ∃ s₁ : Service, s₁.db.automations = s.db.automations ∧ Plays around s₁ l' s' := by
  induction l generalizing s with
  | nil => exact ⟨s, rfl, h⟩
  | cons e l ih =>
    obtain ⟨he, hl⟩ := List.forall_mem_cons.mp hl
    obtain ⟨s₁, s₂, hbefore, heffect, hrest⟩ := h.head
    obtain ⟨s₃, hsame, hplays⟩ := ih hrest hl
    refine ⟨s₃, hsame.trans (Eq.trans ?_ hbefore), hplays⟩
    obtain hanswers | ⟨-, rfl⟩ := heffect
    · exact hanswers.automations he
    · rfl

/-- A merge at the end of a log that leaves automations alone otherwise. -/
theorem Plays.merge {l : List Exchange} {id : Uuid} {delta : ExecutionStats}
    (h : Plays around s (l ++ [⟨.mergeStats id delta, .ok ()⟩]) s') (hl : ∀ e ∈ l, e.request.LeavesAutomations) :
    ∃ s₁ s₂ : Service, s₁.db.automations = s.db.automations ∧ s'.db.automations = s₂.db.automations ∧
      s₁.db.mergeStats id delta = .ok s₂.db := by
  obtain ⟨s₀, hsame, hlast⟩ := h.split hl
  obtain ⟨s₁, s₂, hbefore, hanswers | ⟨⟨e, he⟩ | houtside, -⟩, hrest⟩ := hlast.head
  · exact ⟨s₁, s₂, hbefore.trans hsame, hrest.automations (List.forall_mem_nil _), hanswers.merge⟩
  · cases he
  · exact houtside.elim

end Service
end Outreach
