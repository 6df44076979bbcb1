import Outreach.Proofs.Automation.Offered
import Outreach.Proofs.Service.Titles
import Outreach.Proofs.Tasks.Queue

/-! Automations that are exported and imported again. What is made of a document is stored beside the others under an id
of its own. -/
namespace Outreach
open Database Json

def NewAutomation.made (new : NewAutomation) (id user : Uuid) (createdAt : Instant) : Automation :=
  ⟨id, user, Text.trim new.name, new.status, new.nodes, new.edges, createdAt, new.allowReactivation, new.blockOnOpenChat,
    []⟩

namespace Automation
variable {a b : Automation} {new : NewAutomation}

def copy (a : Automation) (id user : Uuid) (createdAt : Instant) : Automation :=
  { a with id := id, userId := user, createdAt := createdAt, executionStats := [] }

variable (id user : Uuid) (createdAt : Instant)

theorem Valid.copy (h : a.Valid) {nodes : List Node}
    (hnodes : ({ a with nodes := nodes } : Automation).outline = a.outline) :
    ({ a.copy id user createdAt with nodes := nodes } : Automation).Valid :=
  h.of_outline hnodes rfl rfl

/-- A name that was trimmed once is taken over as it is. -/
theorem made_offer (h : IsTitle a.name) (hnew : new = { a.offer with nodes := new.nodes }) :
    new.made id user createdAt = { a.copy id user createdAt with nodes := new.nodes } := by
  have hname : Text.trim new.name = a.name := by rw [hnew, offer, h.trimmed]
  rw [NewAutomation.made, hname, hnew]
  rfl

theorem copy_with_nodes_iff (hnew : new = { a.offer with nodes := new.nodes }) :
    { a.copy id user createdAt with nodes := new.nodes } = a.copy id user createdAt ↔ new = a.offer := by
  constructor
  · intro hcopy
    have hnodes : new.nodes = a.nodes := congrArg Automation.nodes hcopy
    rw [hnew, hnodes]
    rfl
  · rintro rfl
    rfl

end Automation

namespace AutomationRow
open Stored

/-- The row of an automation is read as that automation, created at the microsecond. -/
theorem read_ofAutomation {a : Automation} (hnodes : ∀ n ∈ a.nodes, n.data.Storable sampleLimit ∧ n.KeepsNumbers)
    (hordinary : a.createdAt.Ordinary) (hplain : a.createdAt.IsPlain) (hstats : a.executionStats = []) :
    (ofAutomation a).read = .ok { a with createdAt := a.createdAt.toMicros } := by
  have hstatus : named (AutomationStatus.parse a.status.text) = .ok a.status := by
    rw [AutomationStatus.parse_text]
    rfl
  have huuid (id : Uuid) : uuid id.text = .ok id := by rw [uuid, Uuid.parse?_text]
  have hnodes : document "nodes" (Decode.list Node.decode) (listText Node.encode a.nodes) = .ok a.nodes := by
    rw [document, listText, nodes_text hnodes]
  have hedges : document "edges" (Decode.list Edge.decode) (listText Edge.encode a.edges) = .ok a.edges := by
    rw [document, listText, edges_text]
  have hcreated : instant a.createdAt.microsText = .ok a.createdAt.toMicros := by
    rw [QueuedTask.instant_microsText hordinary, if_pos hplain]
  have hnone : (ofAutomation a).stats = .ok a.executionStats := by
    rw [stats, ofAutomation, hstats, document, ExecutionStats.ofText_nil]
  simp only [read, hnone]
  simp only [ofAutomation, flag_ofBool, hstatus, huuid, hnodes, hedges, hcreated, bind, Except.bind]
  rfl

end AutomationRow

namespace Database

/-- Of a table with one automation more that one is read by its id, and the others as before. -/
theorem automation?_append (db : Database) (a : Automation) (hfree : ∀ r ∈ db.automations, r.id ≠ a.id.text) :
    (∀ id ≠ a.id, Database.automation? id { db with automations := db.automations ++ [.ofAutomation a] } =
      db.automation? id) ∧
    Database.automation? a.id { db with automations := db.automations ++ [.ofAutomation a] } =
      (AutomationRow.ofAutomation a).read.map some := by
  constructor
  · intro id hid
    have hother : (AutomationRow.ofAutomation a).id ≠ id.text := fun hsame => hid (Uuid.text_inj.mp hsame).symm
    have hnone : [AutomationRow.ofAutomation a].find? (fun r => r.id == id.text) = none := by
      rw [List.find?_singleton, if_neg (by simpa using hother)]
    simp only [Database.automation?, List.find?_append, hnone, Option.or_none]
  · have hnone : db.automations.find? (fun r => r.id == a.id.text) = none :=
      List.find?_eq_none.mpr fun r hr => by simpa using hfree r hr
    have hown : [AutomationRow.ofAutomation a].find? (fun r => r.id == a.id.text) = some (.ofAutomation a) :=
      List.find?_cons_of_pos (beq_iff_eq.mpr rfl)
    rw [Database.automation?, List.find?_append, hnone, hown]
    rfl

/-- A copy is read as it was stored, as long as its nodes are. -/
theorem automation?_copy (db : Database) (a : Automation) (nodes : List Node) {id user : Uuid} {createdAt : Instant}
    (hfree : ∀ r ∈ db.automations, r.id ≠ id.text) :
    (∀ i ≠ id, Database.automation? i { db with
      automations := db.automations ++ [.ofAutomation { a.copy id user createdAt with nodes := nodes }] } =
        db.automation? i) ∧
    ((∀ n ∈ nodes, n.data.Storable sampleLimit ∧ n.KeepsNumbers) → createdAt.Ordinary → createdAt.IsPlain →
      Database.automation? id { db with
        automations := db.automations ++ [.ofAutomation { a.copy id user createdAt with nodes := nodes }] } =
          .ok (some { { a.copy id user createdAt with nodes := nodes } with createdAt := createdAt.toMicros })) := by
  obtain ⟨hothers, hown⟩ := automation?_append db { a.copy id user createdAt with nodes := nodes } hfree
  refine ⟨hothers, fun hnodes hordinary hplain => ?_⟩
  have hread := AutomationRow.read_ofAutomation (a := { a.copy id user createdAt with nodes := nodes }) hnodes hordinary
    hplain rfl
  rw [hread] at hown
  exact hown

end Database

namespace Management
open Service
variable {around : Surroundings} {s t : Service} {id user : Uuid} {a : Automation} {new : NewAutomation}

theorem exportText_run (h : s.db.automation? id = .ok (some a)) :
    (exportText id).run.run (answer around) s = some (.ok a.encode.pretty, s) := by
  have hreply : (Program.request (.getAutomation id)).run (answer around) s = some (.ok (some a), s) := by
    change some (s.db.automation? id, s) = _
    rw [h]
  have hget : (get id).run.run (answer around) s = some (.ok a, s) := Attempt.run_bind_of_ok (Attempt.run_of_ok hreply)
  exact Attempt.run_bind_of_ok hget

section Fresh
variable {fresh : Uuid} {now : Instant} (hid : t.freshId.1 = fresh) (hnow : t.clock = now)
  (hfresh : ∀ r ∈ t.db.automations, r.id ≠ fresh.text)
include hid hnow hfresh

/-- A graph that passes the check is stored under a fresh id. -/
theorem create_run (around : Surroundings) (hname : (Text.trim new.name).isEmpty = false)
    (hvalid : (new.made fresh user now).Valid) :
    ∃ t', (create user new).run.run (answer around) t = some (.ok (new.made fresh user now), t') ∧
      t'.db = { t.db with automations := t.db.automations ++ [.ofAutomation (new.made fresh user now)] } := by
  obtain ⟨t₁, hanswer, hdb⟩ : ∃ t₁, answer around .freshIdentity t = ((fresh, now), t₁) ∧ t₁.db = t.db := by
    refine ⟨t.tick.2.freshId.2, ?_, by simp only [freshId, tick_db]⟩
    rw [← hid, ← hnow]
    simp only [answer, tick, freshId]
  have hidentity : (Attempt.always (Program.request .freshIdentity) : Attempt (Uuid × Instant)).run.run (answer around)
      t = some (.ok (fresh, now), t₁) := by
    change some (Except.ok (answer around .freshIdentity t).1, (answer around .freshIdentity t).2) = _
    rw [hanswer]
  have hcheck : (checkGraph (new.made fresh user now)).run.run (answer around) t₁ = some (.ok (), t₁) := by
    rw [checkGraph_eq_pure_iff.mpr hvalid]
    rfl
  have hmade : t₁.db.createAutomation (new.made fresh user now) =
      .ok { t.db with automations := t.db.automations ++ [.ofAutomation (new.made fresh user now)] } := by
    have hid : (new.made fresh user now).id = fresh := rfl
    have hfree : t.db.automations.any (·.id == fresh.text) = false :=
      List.any_eq_false.mpr fun r hr => by simpa using hfresh r hr
    rw [createAutomation, hdb, hid, hfree]
    rfl
  have hreply : (Program.request (.createAutomation (new.made fresh user now))).run (answer around) t₁ =
      some (.ok (), { t₁ with
        db := { t.db with automations := t.db.automations ++ [.ofAutomation (new.made fresh user now)] } }) := by
    change some (t₁.writing (t₁.db.createAutomation (new.made fresh user now))) = _
    rw [hmade]
    rfl
  simp only [create, hname, Bool.false_eq_true, if_false]
  refine ⟨_, (Attempt.run_bind_of_ok hidentity).trans ((Attempt.run_bind_of_ok hcheck).trans
    (Attempt.run_bind_of_ok (Attempt.run_of_ok hreply))), rfl⟩

/-- What is read from the document of an automation is stored, with a name and a graph as they were. -/
theorem importText_run (around : Surroundings) (htitle : IsTitle a.name) (hvalid : a.Valid)
    (hread : Decode.ofText NewAutomation.decode a.encode.pretty = .ok new) :
    ∃ t', (importText user a.encode.pretty).run.run (answer around) t =
        some (.ok { a.copy fresh user now with nodes := new.nodes }, t') ∧
      t'.db = { t.db with
        automations := t.db.automations ++ [.ofAutomation { a.copy fresh user now with nodes := new.nodes }] } := by
  obtain ⟨hnew, houtline⟩ := Automation.outline_of_offer hread
  have hname : (Text.trim new.name).isEmpty = false := by
    rw [hnew, Automation.offer, htitle.trimmed]
    exact htitle.nonempty
  have hmade := Automation.made_offer fresh user now htitle hnew
  unfold importText
  rw [hread, ← hmade]
  exact create_run hid hnow hfresh around hname (hmade ▸ hvalid.copy _ _ _ houtline)

end Fresh

theorem importText_run_error {document : String} {e : DecodeError}
    (hread : Decode.ofText NewAutomation.decode document = .error e) :
    (importText user document).run.run (answer around) t = some (.error (.parse e), t) := by
  unfold importText
  rw [hread]
  rfl

end Management

namespace Service
variable {around : Surroundings} {id : Uuid} {s t : Service} {a : Automation}

/-- What is read of an automation that nobody edited has a name, and a graph that may be stored. -/
theorem Unedited.read (hs : Unedited around id s) (hget : s.db.automation? id = .ok (some a)) :
    IsTitle a.name ∧ a.Valid ∧ ∀ n ∈ a.nodes, n.data.Storable sampleLimit := by
  obtain ⟨r, hfind, hread⟩ := automation?_eq_some.mp hget
  have hr := List.mem_of_find?_eq_some hfind
  have hid : r.id = id.text := by simpa using List.find?_some hfind
  exact ⟨hs.titled.isTitle hr hid hread, hs.kept.sound.valid hr hread, (AutomationRow.holds_of_read hread).storable⟩

/-- Whoever can be read can be exported. The document of an automation nobody edited can be imported exactly when it does
not nest too deep and the numbers in its nodes are read, and comes to a copy exactly when they are read as they were.
What is refused is so for its document, and nothing changes then. What is made differs from the copy at most within
nodes, and stands beside all that was there. -/
theorem import_exported (hs : Unedited around id s) (hget : s.db.automation? id = .ok (some a)) (user : Uuid)
    (hfresh : ∀ r ∈ t.db.automations, r.id ≠ t.freshId.1.text) :
    ∃ document x t', (Management.exportText id).run.run (answer around) s = some (.ok document, s) ∧
      (Management.importText user document).run.run (answer around) t = some (x, t') ∧
      (x = .ok (a.copy t.freshId.1 user t.clock) ↔ a.encode.depth ≤ depthLimit ∧ ∀ n ∈ a.nodes, n.KeepsNumbers) ∧
      ((∃ b, x = .ok b) ↔ a.encode.depth ≤ depthLimit ∧ ∀ n ∈ a.nodes, n.ReadsNumbers) ∧
      (∀ e, x = .error e → (∃ fault, e = .parse fault) ∧ t' = t) ∧
      ∀ b, x = .ok b → b = { a.copy t.freshId.1 user t.clock with nodes := b.nodes } ∧ b.outline = a.outline ∧
        t'.db = { t.db with automations := t.db.automations ++ [.ofAutomation b] } ∧
        (∀ i ≠ t.freshId.1, t'.db.automation? i = t.db.automation? i) ∧
        (b.nodes = a.nodes → t.clock.Ordinary → t.clock.IsPlain →
          t'.db.automation? t.freshId.1 = .ok (some { b with createdAt := t.clock.toMicros })) := by
  -- The fresh id is kept closed: it is a text that was parsed, which no step should unfold.
  obtain ⟨fresh, hid⟩ : ∃ fresh, t.freshId.1 = fresh := ⟨_, rfl⟩
  obtain ⟨now, hnow⟩ : ∃ now, t.clock = now := ⟨_, rfl⟩
  rw [hid] at hfresh
  rw [hid, hnow]
  obtain ⟨htitle, hvalid, hstorable⟩ := hs.read hget
  have htyped (n : Node) (hn : n ∈ a.nodes) : n.data.Typed := ⟨sampleLimit, hstorable n hn⟩
  have hoffer := Automation.offer_iff htyped
  have hreadable := Automation.offer_isOk_iff htyped
  refine ⟨a.encode.pretty, ?_⟩
  cases hread : Decode.ofText NewAutomation.decode a.encode.pretty with
  | error fault =>
    rw [hread] at hoffer hreadable
    refine ⟨_, t, Management.exportText_run hget, Management.importText_run_error hread, ?_, ?_, fun e he => ?_, nofun⟩
    · exact ⟨nofun, fun h => by cases hoffer.mpr h⟩
    · exact ⟨nofun, fun h => by obtain ⟨_, hnew⟩ := hreadable.mpr h; cases hnew⟩
    · cases he
      exact ⟨⟨fault, rfl⟩, rfl⟩
  | ok new =>
    obtain ⟨hnew, houtline⟩ := Automation.outline_of_offer hread
    obtain ⟨t', himport, hdb⟩ := Management.importText_run hid hnow hfresh around htitle hvalid hread
    have hcopy := Automation.copy_with_nodes_iff fresh user now hnew
    obtain ⟨hothers, hown⟩ := automation?_copy t.db a new.nodes hfresh
    rw [hread, Except.ok.injEq, ← hcopy] at hoffer
    refine ⟨_, t', Management.exportText_run hget, himport, ?_, ?_, nofun, fun b hb => ?_⟩
    · rw [Except.ok.injEq, hoffer]
    · exact ⟨fun _ => hreadable.mp ⟨new, hread⟩, fun _ => ⟨_, rfl⟩⟩
    · cases hb
      refine ⟨rfl, houtline, hdb, ?_, fun hnodes hordinary hplain => ?_⟩
      · rw [hdb]
        exact hothers
      · have hsame : new.nodes = a.nodes := hnodes
        have hkeeps := (hoffer.mp (by rw [hsame]; rfl)).2
        have hstored : ∀ n ∈ new.nodes, n.data.Storable sampleLimit ∧ n.KeepsNumbers := by
          rw [hsame]
          exact fun n hn => ⟨hstorable n hn, hkeeps n hn⟩
        rw [hdb]
        exact hown hstored hordinary hplain

end Service

namespace Intake
open Service

theorem attentive_unedited : Unedited .offline default attentive :=
  .operation (o := .create default waiting) (.empty rfl) trivial attentive_created

theorem automation?_attentive : attentive.db.automation? default = .ok (some welcome) := by
  have hnodes : ∀ n ∈ welcome.nodes, n.data.Storable sampleLimit ∧ n.KeepsNumbers :=
    List.forall_mem_singleton.mpr ⟨nofun, List.forall_mem_nil _⟩
  obtain ⟨-, hown⟩ := automation?_append .empty welcome (List.forall_mem_nil _)
  rw [AutomationRow.read_ofAutomation hnodes (by decide) (by decide) rfl] at hown
  exact hown

theorem import_exported_attentive : ∃ document t',
    (Management.exportText default).run.run (answer .offline) attentive = some (.ok document, attentive) ∧
    (Management.importText (.numbered 7) document).run.run (answer .offline) attentive =
      some (.ok (welcome.copy attentive.freshId.1 (.numbered 7) attentive.clock), t') ∧
    t'.db.automation? default = .ok (some welcome) ∧
    t'.db.automation? attentive.freshId.1 =
      .ok (some (welcome.copy attentive.freshId.1 (.numbered 7) attentive.clock.toMicros)) := by
  have hother : default ≠ attentive.freshId.1 := by decide +kernel
  have hfresh : ∀ r ∈ attentive.db.automations, r.id ≠ attentive.freshId.1.text :=
    List.forall_mem_singleton.mpr fun hsame => hother (Uuid.text_inj.mp hsame)
  obtain ⟨document, x, t', hexport, himport, hx, -, -, hmade⟩ :=
    import_exported attentive_unedited automation?_attentive (.numbered 7) hfresh
  have hcopied := hx.mpr ⟨by decide +kernel, List.forall_mem_singleton.mpr (List.forall_mem_nil _)⟩
  rw [hcopied] at himport
  obtain ⟨-, -, -, hothers, hown⟩ := hmade _ hcopied
  exact ⟨document, t', hexport, himport, (hothers default hother).trans automation?_attentive,
    hown rfl (by decide) (by decide)⟩

/-- A sample of 124 levels can be read and exported, but nobody can import it. -/
theorem copy_refused : ∃ s a document e, Unedited .offline default s ∧ s.db.automation? default = .ok (some a) ∧
    (Management.exportText default).run.run (answer .offline) s = some (.ok document, s) ∧
    ∀ user t, (Management.importText user document).run.run (answer .offline) t = some (.error (.parse e), t) := by
  obtain ⟨s', hpost⟩ : ∃ s', post (nested 123) = some (.ok (.sampleCaptured default), s') :=
    exists_captured (by decide +kernel)
  have hundergoes : Undergoes .offline (.occasion (.call "hook" (nested 123))) true attentive s' := by
    have hcall : (Occasion.program .offline (.call "hook" (nested 123))).run (answer .offline) attentive =
        some (.served (.ok (.sampleCaptured default)), s') := by
      have hserved : (handle Surroundings.offline.settings Surroundings.offline.limit "hook" (nested 123)).run.run
        (answer .offline) attentive = some (.ok (.sampleCaptured default), s') := hpost
      refine (Program.run_bind _ _ _ _).trans ?_
      rw [hserved]
      rfl
    refine undergoes_of_run ((Program.run_bind _ _ _ _).trans ?_)
    rw [hcall]
    rfl
  have hunedited : Unedited .offline default s' :=
    .operation (o := .occasion (.call "hook" (nested 123))) attentive_unedited trivial hundergoes
  have hdepth : (nested 123).depth = sampleLimit := by
    rw [depth_nested]
    rfl
  obtain ⟨before, a, after, db, hlist, -, hlistens, hid, hupdate, rfl⟩ := captured_of_run hpost
  obtain ⟨a', ha'⟩ := Automation.exists_sampled hlistens (nested 123).unlessNull
  have hkeeps : ∀ n ∈ a.nodes, n.KeepsNumbers := by
    have ha := attentive_identified.automation? hlist (List.mem_append_right before List.mem_cons_self)
    rw [hid, automation?_attentive] at ha
    cases ha
    exact List.forall_mem_singleton.mpr (List.forall_mem_nil _)
  have hnumbers : ∀ x ∈ (nested 123).numbers, x.reread? = some x := by
    rw [numbers_nested]
    exact List.forall_mem_nil _
  obtain ⟨hget, -⟩ := kept_of_capture attentive_identified hlist ha' (nested_canonical 123) hupdate hnumbers hkeeps
    hdepth.le
  rw [hid] at hget
  obtain ⟨pre, n, rest, -, -, -, -, ha'⟩ := ha'
  have hn : n.sampled "hook" (nested 123).unlessNull ∈ a'.nodes := by
    rw [ha']
    exact List.mem_append_right pre List.mem_cons_self
  obtain ⟨e, herror⟩ := Automation.offer_error hn rfl (nested_canonical 123) hdepth.ge
  exact ⟨{ attentive with db := db }, a', a'.encode.pretty, e, hunedited, hget, Management.exportText_run hget,
    fun user t => Management.importText_run_error herror⟩

end Intake
end Outreach
