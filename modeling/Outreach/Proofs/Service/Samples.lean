import Outreach.Engine.Intake
import Outreach.Proofs.Database.Automations
import Outreach.Proofs.Engine.Program
import Outreach.Proofs.Service.Answers

/-! Samples of a webhook once they are captured. The automation comes back with the body as its sample and listens no
more, and all others are as they were; but for a body that is null, which comes back as none, and for one that nests too
deep: with that the automation cannot be read any more, and nobody's automations can be listed. -/
namespace Outreach
open Json

variable {webhookId : String} {body : Json}

def Node.Serves (webhookId : String) (n : Node) : Prop :=
  ∃ listening sample, n.data = .trigger (.webhook webhookId listening sample)

def Node.listens? (webhookId : String) (n : Node) : Option Bool :=
  match n.data with
  | .trigger (.webhook id listening _) => if id = webhookId then some listening else none
  | _ => none

theorem Node.listens?_eq_some {n : Node} {listening : Bool} :
    n.listens? webhookId = some listening ↔ ∃ sample, n.data = .trigger (.webhook webhookId listening sample) := by
  obtain ⟨id, data, position⟩ := n
  cases data with
  | action x => simp [listens?]
  | trigger t => cases t <;> simp [listens?]

theorem Node.listens?_eq_none {n : Node} : n.listens? webhookId = none ↔ ¬ n.Serves webhookId := by
  rw [Option.eq_none_iff_forall_ne_some]
  simp only [ne_eq, listens?_eq_some, Serves, not_exists]

def Node.sampled (webhookId : String) (sample : Option Json) (n : Node) : Node :=
  { n with data := .trigger (.webhook webhookId false sample) }

theorem Node.storable_sampled {n : Node} {m : Nat} (hbody : body.Canonical) (hdepth : body.depth ≤ m) :
    (n.sampled webhookId body.unlessNull).data.Storable m := by
  intro j hj
  obtain ⟨rfl, hnull⟩ := unlessNull_eq_some.mp hj
  exact ⟨hbody, hnull, hdepth⟩

theorem Node.keepsNumbers_sampled {n : Node} (hn : n.KeepsNumbers) (hbody : ∀ x ∈ body.numbers, x.reread? = some x) :
    (n.sampled webhookId body.unlessNull).KeepsNumbers := by
  intro x hx
  obtain ⟨m, hm, hxm⟩ := mem_membersNumbers.mp hx
  obtain hm | hm := List.mem_append.mp hm
  · simp only [List.mem_cons, List.not_mem_nil, or_false] at hm
    obtain rfl | rfl | rfl | rfl := hm
    · cases hxm
    · cases hxm
    · cases hxm
    · refine hbody x ?_
      have hdata := numbers_sorted_subset _ hxm
      cases body with
      | null | bool _ | str _ => cases hdata
      | _ => simpa [sampled, NodeData.encode, Trigger.encode, Trigger.details, unlessNull, ofOption, numbers,
          membersNumbers] using hdata
  · exact hn x (mem_membersNumbers.mpr ⟨m, List.mem_append_right _ hm, hxm⟩)

theorem Node.encode_sampled (n : Node) :
    (n.sampled webhookId (some body)).encode = (n.sampled webhookId body.unlessNull).encode := by
  cases body <;> rfl

namespace Automation
variable {a a' : Automation}

/-- Of the nodes only the first trigger for the webhook is another one: it listened and does not any more, and it has
the sample. Nothing else of the automation is changed. -/
def Sampled (webhookId : String) (sample : Option Json) (a a' : Automation) : Prop :=
  ∃ pre n post old, a.nodes = pre ++ n :: post ∧ (∀ m ∈ pre, ¬ m.Serves webhookId) ∧
    n.data = .trigger (.webhook webhookId true old) ∧
    a' = { a with nodes := pre ++ n.sampled webhookId sample :: post }

theorem listensOn?_eq_some {listening : Bool} : a.listensOn? webhookId = some listening ↔
    ∃ pre n post sample, a.nodes = pre ++ n :: post ∧ (∀ m ∈ pre, ¬ m.Serves webhookId) ∧
      n.data = .trigger (.webhook webhookId listening sample) := by
  have hnodes : a.listensOn? webhookId = a.nodes.findSome? (Node.listens? webhookId) := by
    rw [listensOn?, triggers]
    induction a.nodes with
    | nil => rfl
    | cons n nodes ih =>
      obtain ⟨id, data, position⟩ := n
      cases data with
      | action x => exact ih
      | trigger t =>
        rw [List.filterMap_cons, List.findSome?_cons, ← ih]
        cases t <;> rfl
  rw [hnodes, List.findSome?_eq_some_iff]
  simp only [Node.listens?_eq_some, Node.listens?_eq_none]
  constructor
  · intro h
    obtain ⟨pre, n, post, hsplit, ⟨sample, hdata⟩, hpre⟩ := h
    exact ⟨pre, n, post, sample, hsplit, hpre, hdata⟩
  · intro h
    obtain ⟨pre, n, post, sample, hsplit, hpre, hdata⟩ := h
    exact ⟨pre, n, post, hsplit, ⟨sample, hdata⟩, hpre⟩

theorem Sampled.listensOn? {sample : Option Json} (h : a.Sampled webhookId sample a') :
    a'.listensOn? webhookId = some false := by
  obtain ⟨pre, n, post, old, -, hpre, -, rfl⟩ := h
  exact listensOn?_eq_some.mpr ⟨pre, n.sampled webhookId sample, post, sample, rfl, hpre, rfl⟩

theorem captureIn_append {pre post : List Node} {n : Node} (hpre : ∀ m ∈ pre, ¬ m.Serves webhookId)
    (hn : n.Serves webhookId) :
    captureIn webhookId body (pre ++ n :: post) = pre ++ n.sampled webhookId (some body) :: post := by
  induction pre with
  | nil =>
    obtain ⟨listening, sample, hdata⟩ := hn
    simp [captureIn, hdata, Node.sampled]
  | cons m pre ih =>
    obtain ⟨hm, hpre⟩ := List.forall_mem_cons.mp hpre
    rw [List.cons_append, captureIn, ih hpre]
    split
    · rename_i id listening sample hdata
      split
      · rename_i hid
        exact absurd ⟨listening, sample, hid ▸ hdata⟩ hm
      · rfl
    · rfl

theorem exists_sampled (h : a.listensOn? webhookId = some true) (sample : Option Json) :
    ∃ a', a.Sampled webhookId sample a' := by
  obtain ⟨pre, n, post, old, hnodes, hpre, hdata⟩ := listensOn?_eq_some.mp h
  exact ⟨_, pre, n, post, old, hnodes, hpre, hdata, rfl⟩

theorem Sampled.captureSample {sample : Option Json} (h : a.Sampled webhookId sample a') (body : Json) :
    ∃ pre n post, a.nodes = pre ++ n :: post ∧ a' = { a with nodes := pre ++ n.sampled webhookId sample :: post } ∧
      a.captureSample webhookId body = { a with nodes := pre ++ n.sampled webhookId (some body) :: post } := by
  obtain ⟨pre, n, post, old, hnodes, hpre, hdata, rfl⟩ := h
  refine ⟨pre, n, post, hnodes, rfl, ?_⟩
  rw [Automation.captureSample, hnodes, captureIn_append hpre ⟨true, old, hdata⟩]

theorem Sampled.eq_captureSample_iff {sample : Option Json} (h : a.Sampled webhookId sample a') :
    a' = a.captureSample webhookId body ↔ sample = some body := by
  obtain ⟨pre, n, post, -, rfl, hcapture⟩ := h.captureSample body
  rw [hcapture]
  constructor
  · intro heq
    have hnodes := congrArg Automation.nodes heq
    simpa [Node.sampled] using hnodes
  · intro heq
    rw [heq]

end Automation

namespace Database
open Stored
variable {db db' : Database} {a : Automation} {before after : List Automation} {pre post : List Node} {n : Node}

def damaged : RepositoryError := .query "invalid nodes JSON"

/-- In a list without repetitions one entry is replaced. -/
theorem map_replace (h : ((before ++ a :: after).map (·.id)).Nodup) (a' : Automation) :
    ((before ++ a :: after).map fun b => if b.id = a.id then a' else b) = before ++ a' :: after := by
  rw [List.map_append, List.map_cons, List.nodup_append] at h
  obtain ⟨-, hafter, hbefore⟩ := h
  have hkeep (l : List Automation) (hl : ∀ b ∈ l, b.id ≠ a.id) :
      (l.map fun b => if b.id = a.id then a' else b) = l := by
    refine (List.map_congr_left fun b hb => if_neg (hl b hb)).trans (List.map_id l)
  rw [List.map_append, List.map_cons, if_pos rfl, hkeep before, hkeep after]
  · intro b hb hid
    exact (List.nodup_cons.mp hafter).1 (hid ▸ List.mem_map_of_mem hb)
  · intro b hb
    exact hbefore _ (List.mem_map_of_mem hb) _ List.mem_cons_self

theorem storable_of_listed {listed : List Automation} (hlist : db.listAutomations .all = .ok listed) (ha : a ∈ listed) :
    ∀ n ∈ a.nodes, n.data.Storable sampleLimit := by
  obtain ⟨r, -, hread⟩ := exists_row hlist ha
  exact (AutomationRow.holds_of_read hread).storable

section Sampled

/-- Stored nodes with a sample come back with it, unless it is null. -/
theorem document_sampled (webhookId : String) (hcanonical : body.Canonical)
    (hnumbers : ∀ x ∈ body.numbers, x.reread? = some x)
    (hstorable : ∀ m ∈ pre ++ n :: post, m.data.Storable sampleLimit)
    (hkeeps : ∀ m ∈ pre ++ n :: post, m.KeepsNumbers) (hdepth : body.depth ≤ sampleLimit) :
    document "nodes" (Decode.list Node.decode) (listText Node.encode (pre ++ n.sampled webhookId (some body) :: post)) =
      .ok (pre ++ n.sampled webhookId body.unlessNull :: post) := by
  have htext : listText Node.encode (pre ++ n.sampled webhookId (some body) :: post) =
      listText Node.encode (pre ++ n.sampled webhookId body.unlessNull :: post) := by
    simp only [listText, List.map_append, List.map_cons, Node.encode_sampled]
  have hnodes : ∀ m ∈ pre ++ n.sampled webhookId body.unlessNull :: post,
      m.data.Storable sampleLimit ∧ m.KeepsNumbers := by
    simp only [List.forall_mem_append, List.forall_mem_cons] at hstorable hkeeps ⊢
    refine ⟨fun m hm => ⟨hstorable.1 m hm, hkeeps.1 m hm⟩, ?_, fun m hm => ⟨hstorable.2.2 m hm, hkeeps.2.2 m hm⟩⟩
    exact ⟨Node.storable_sampled hcanonical hdepth, Node.keepsNumbers_sampled hkeeps.2.1 hnumbers⟩
  rw [htext, document, listText, nodes_text hnodes]

/-- With a sample that nests too deep none of the nodes comes back. -/
theorem document_sampled_error (webhookId : String) (pre post : List Node) (n : Node) (hcanonical : body.Canonical)
    (hdepth : sampleLimit < body.depth) : document "nodes" (Decode.list Node.decode)
      (listText Node.encode (pre ++ n.sampled webhookId (some body) :: post)) = .error damaged := by
  have hmem : n.sampled webhookId (some body) ∈ pre ++ n.sampled webhookId (some body) :: post :=
    List.mem_append_right _ List.mem_cons_self
  obtain ⟨e, herror⟩ := nodes_text_error hmem rfl hcanonical hdepth
  rw [document, listText, herror]
  rfl

variable {a' : Automation} (hdb : db.Identified) (hlist : db.listAutomations .all = .ok (before ++ a :: after))
  (ha' : a.Sampled webhookId body.unlessNull a') (hcanonical : body.Canonical)
  (hupdate : db.updateAutomation (a.captureSample webhookId body) = .ok db')
include hdb hlist ha' hcanonical hupdate

theorem kept_of_capture (hnumbers : ∀ x ∈ body.numbers, x.reread? = some x) (hkeeps : ∀ n ∈ a.nodes, n.KeepsNumbers)
    (hdepth : body.depth ≤ sampleLimit) :
    db'.automation? a.id = .ok (some a') ∧ db'.listAutomations .all = .ok (before ++ a' :: after) := by
  have ha : a ∈ before ++ a :: after := List.mem_append_right _ List.mem_cons_self
  have hstorable := storable_of_listed hlist ha
  obtain ⟨pre, n, post, hnodes, rfl, hcapture⟩ := ha'.captureSample body
  rw [hnodes] at hstorable hkeeps
  rw [hcapture] at hupdate
  have hdocument := document_sampled webhookId hcanonical hnumbers hstorable hkeeps hdepth
  have hgot := automation?_update hdb hlist ha hupdate
  rw [hdocument] at hgot
  have hlisted := listAutomations_update hdb hlist ha hupdate hdocument
  rw [map_replace (hdb.nodup hlist)] at hlisted
  exact ⟨hgot, hlisted⟩

theorem damaged_of_capture (hdepth : sampleLimit < body.depth) :
    db'.automation? a.id = .error damaged ∧ db'.listAutomations .all = .error damaged := by
  have ha : a ∈ before ++ a :: after := List.mem_append_right _ List.mem_cons_self
  obtain ⟨pre, n, post, -, -, hcapture⟩ := ha'.captureSample body
  rw [hcapture] at hupdate
  have hdocument := document_sampled_error webhookId pre post n hcanonical hdepth
  have hgot := automation?_update hdb hlist ha hupdate
  rw [hdocument] at hgot
  exact ⟨hgot, listAutomations_update_error hdb hlist ha hupdate hdocument⟩

end Sampled
end Database

namespace Intake
open Program Service Database
variable {around : Surroundings} {settings : EngineSettings} {limit : Nat} {s s' : Service} {id : Uuid}

/-- A sample is captured where the first active automation with the webhook listens. -/
theorem captured_of_run (h : (handle settings limit webhookId body).run.run (answer around) s =
    some (.ok (.sampleCaptured id), s')) : ∃ before a after db, s.db.listAutomations .all = .ok (before ++ a :: after) ∧
      a.status = .active ∧ a.listensOn? webhookId = some true ∧ a.id = id ∧
      s.db.updateAutomation (a.captureSample webhookId body) = .ok db ∧ s' = { s with db := db } := by
  unfold handle at h
  obtain ⟨e', hlist, heq⟩ | ⟨listed, s₁, hlist, h⟩ := Attempt.run_bind_eq_some.mp h
  · cases heq
  obtain ⟨hlisted, rfl⟩ : s.db.listAutomations .all = .ok listed ∧ s = s₁ := by
    simpa [Program.request, Program.run, answer] using Attempt.ok_of_run hlist
  split at h
  · cases h
  · rename_i a hfound
    split at h
    · rename_i hlistens
      obtain ⟨e', hupdate, heq⟩ | ⟨_, s₁, hupdate, h⟩ := Attempt.run_bind_eq_some.mp h
      · cases heq
      · cases h
        have hanswer : s.writing (s.db.updateAutomation (a.captureSample webhookId body)) = (.ok (), s') :=
          Option.some.inj (Attempt.ok_of_run hupdate)
        obtain ⟨db, hdb, rfl⟩ := writing_eq_ok hanswer
        obtain ⟨hactive, before, after, rfl, -⟩ := List.find?_eq_some_iff_append.mp hfound
        rw [Bool.and_eq_true, beq_iff_eq] at hactive
        exact ⟨before, a, after, db, hlisted, hactive.1, beq_iff_eq.mp hlistens, rfl, hdb, rfl⟩
    · split at h
      · cases h
      · rename_i phone hphone
        obtain ⟨e', hcontact, heq⟩ | ⟨⟨contact, created⟩, s₁, hcontact, h⟩ := Attempt.run_bind_eq_some.mp h
        · cases heq
        · obtain ⟨e', hconnection, heq⟩ | ⟨connection, s₂, hconnection, h⟩ := Attempt.run_bind_eq_some.mp h
          · cases heq
          · cases connection with
            | none => cases h
            | some connection =>
              obtain ⟨e', hfire, heq⟩ | ⟨reports, s₂, -, h⟩ := Attempt.run_bind_eq_some.mp h
              · cases heq
              · cases h

/-- With automations that cannot be listed every request fails. -/
theorem handle_damaged {e : RepositoryError} (h : s.db.listAutomations .all = .error e) :
    (handle settings limit webhookId body).run.run (answer around) s = some (.error (.repository e), s) := by
  have hlisted : (Program.request (.listAutomations .all)).run (answer around) s = some (.error e, s) :=
    congrArg (fun x => some (x, s)) h
  unfold handle
  rw [Attempt.run_bind, stored, Attempt.run_of, hlisted]
  rfl

/-- An automation that does not listen is not what a request captures a sample for. -/
theorem not_captured (hdb : s.db.Identified)
    (hquiet : ∀ b, s.db.automation? id = .ok (some b) → b.listensOn? webhookId = some false) :
    (handle settings limit webhookId body).run.run (answer around) s ≠ some (.ok (.sampleCaptured id), s') := by
  intro hrun
  obtain ⟨before, b, after, db, hlist, -, hlistens, rfl, -, -⟩ := captured_of_run hrun
  have hb := hdb.automation? hlist (List.mem_append_right before List.mem_cons_self)
  cases hlistens.symm.trans (hquiet b hb)

/-- A captured body is kept as the sample and the automation can be used on, exactly when it nests no deeper than its
place allows and is not null. Otherwise null is read as no sample at all, or else neither this automation nor any list
of automations can be read, so that every request to whatever webhook fails. -/
theorem handle_captured {text : String} (hdb : s.db.Identified) (hbody : Json.parse? text = some body)
    (hnumbers : ∀ x ∈ body.numbers, x.reread? = some x)
    (hkeeps : ∀ a, s.db.automation? id = .ok (some a) → ∀ n ∈ a.nodes, n.KeepsNumbers)
    (hrun : (handle settings limit webhookId body).run.run (answer around) s = some (.ok (.sampleCaptured id), s')) :
    (∃ rows, s' = { s with db := { s.db with automations := rows } }) ∧
    ∃ before a after a', s.db.listAutomations .all = .ok (before ++ a :: after) ∧
      s.db.automation? id = .ok (some a) ∧ a.Sampled webhookId body.unlessNull a' ∧
      (body.depth ≤ sampleLimit → s'.db.automation? id = .ok (some a') ∧
        s'.db.listAutomations .all = .ok (before ++ a' :: after)) ∧
      (sampleLimit < body.depth → s'.db.automation? id = .error damaged ∧ s'.db.listAutomations .all = .error damaged ∧
        ∀ (t : Service) (webhookId' : String) (body' : Json), t.db.automations = s'.db.automations →
          (handle settings limit webhookId' body').run.run (answer around) t = some (.error (.repository damaged), t)) ∧
      (∀ (t t' : Service) (body' : Json), t.db.Identified →
        (∀ b, t.db.automation? id = .ok (some b) → b.nodes = a'.nodes) →
        (handle settings limit webhookId body').run.run (answer around) t ≠ some (.ok (.sampleCaptured id), t')) ∧
      (s'.db.automation? id = .ok (some (a.captureSample webhookId body)) ↔
        body.depth ≤ sampleLimit ∧ body ≠ .null) := by
  have hcanonical := parse?_canonical hbody
  obtain ⟨before, a, after, db, hlist, -, hlistens, rfl, hupdate, rfl⟩ := captured_of_run hrun
  have ha : a ∈ before ++ a :: after := List.mem_append_right _ List.mem_cons_self
  have hget := hdb.automation? hlist ha
  obtain ⟨a', ha'⟩ := Automation.exists_sampled hlistens body.unlessNull
  have hkept := kept_of_capture hdb hlist ha' hcanonical hupdate hnumbers (hkeeps a hget)
  have hdamaged := damaged_of_capture hdb hlist ha' hcanonical hupdate
  refine ⟨?_, before, a, after, a', hlist, hget, ha', hkept, fun hdepth => ?_, ?_, ?_⟩
  · obtain ⟨rows, hrows⟩ := updateAutomation_eq hupdate
    exact ⟨rows, congrArg (fun db => { s with db := db }) hrows⟩
  · refine ⟨(hdamaged hdepth).1, (hdamaged hdepth).2, fun t webhookId' body' ht => handle_damaged ?_⟩
    rw [← (hdamaged hdepth).2, listAutomations, listAutomations, ht]
  · intro t t' body' ht hnodes
    apply not_captured ht
    intro b hb
    rw [← ha'.listensOn?, Automation.listensOn?, Automation.listensOn?, Automation.triggers, Automation.triggers,
      hnodes b hb]
  · constructor
    · intro hcaptured
      by_cases hdepth : body.depth ≤ sampleLimit
      · refine ⟨hdepth, ?_⟩
        cases (hkept hdepth).1.symm.trans hcaptured
        exact (unlessNull_eq_some.mp (ha'.eq_captureSample_iff.mp rfl)).2
      · cases (hdamaged (by omega)).1.symm.trans hcaptured
    · intro hboth
      rw [← ha'.eq_captureSample_iff.mpr (unlessNull_eq_some.mpr ⟨rfl, hboth.2⟩)]
      exact (hkept hboth.1).1

def attentive : Service :=
  .new ⟨[.ofAutomation ⟨default, default, "welcome", .active, [⟨"t", .trigger (.webhook "hook" true none), none⟩], [],
    ⟨1717408800, 0⟩, true, false, []⟩], [], [], [], [], 0, 0⟩ ⟨1717408800, 0⟩ 0

theorem attentive_identified : attentive.db.Identified where
  written := List.forall_mem_singleton.mpr ⟨default, rfl⟩
  different := List.nodup_singleton _

def post (body : Json) : Option (Except IntakeError IntakeOutcome × Service) :=
  (handle Surroundings.offline.settings 8 "hook" body).run.run (answer .offline) attentive

def captured? : Except IntakeError IntakeOutcome → Option Uuid
  | .ok (.sampleCaptured id) => some id
  | _ => none

theorem exists_captured {body : Json} {id : Uuid} (h : (post body).bind (fun x => captured? x.1) = some id) :
    ∃ s', post body = some (.ok (.sampleCaptured id), s') := by
  obtain ⟨⟨x, s'⟩, hpost, hx⟩ := Option.bind_eq_some_iff.mp h
  dsimp only at hx
  unfold captured? at hx
  split at hx
  · cases hx
    exact ⟨s', hpost⟩
  · cases hx

def nested : Nat → Json
  | 0 => .arr []
  | n + 1 => .arr [nested n]

theorem nested_canonical (n : Nat) : (nested n).Canonical := by
  induction n with
  | zero => trivial
  | succ n ih => exact ⟨ih, trivial⟩

theorem depth_nested (n : Nat) : (nested n).depth = n + 1 := by
  induction n with
  | zero => rfl
  | succ n ih => simp [nested, depth, itemsDepth, ih]

theorem numbers_nested (n : Nat) : (nested n).numbers = [] := by
  induction n with
  | zero => rfl
  | succ n ih => simp [nested, numbers, itemsNumbers, ih]

/-- A body of 125 levels is accepted, and once it is captured nothing can be read or listed any more. -/
theorem damaged_by_post : ∃ s', Json.parse? (nested 124).text = some (nested 124) ∧
    post (nested 124) = some (.ok (.sampleCaptured default), s') ∧ s'.db.automation? default = .error damaged ∧
    s'.db.listAutomations .all = .error damaged := by
  have hbody : Json.parse? (nested 124).text = some (nested 124) := by
    rw [parse?_text (nested_canonical 124), reading?_eq_self, depth_nested, numbers_nested]
    exact ⟨by decide, List.forall_mem_nil _⟩
  obtain ⟨s', hpost⟩ : ∃ s', post (nested 124) = some (.ok (.sampleCaptured default), s') :=
    exists_captured (by decide +kernel)
  obtain ⟨before, a, after, db, hlist, -, hlistens, hid, hupdate, rfl⟩ := captured_of_run hpost
  obtain ⟨a', ha'⟩ := Automation.exists_sampled hlistens (nested 124).unlessNull
  have hdepth : sampleLimit < (nested 124).depth := by
    rw [depth_nested]
    decide
  obtain ⟨hget, hlisted⟩ :=
    damaged_of_capture attentive_identified hlist ha' (nested_canonical 124) hupdate hdepth
  exact ⟨_, hbody, hpost, hid ▸ hget, hlisted⟩

def withPhone : Json := .obj [("phone", .str "5581977776666")]

theorem parse?_withPhone : Json.parse? withPhone.text = some withPhone := by
  have hcanonical : withPhone.Canonical := ⟨List.pairwise_singleton _ _, trivial, trivial⟩
  rw [parse?_text hcanonical, reading?_eq_self]
  exact ⟨by decide, List.forall_mem_nil _⟩

/-- Of a webhook that waits the body is kept as the sample, and it waits no more. -/
theorem handle_captured_withPhone : ∃ (s' : Service) (a a' : Automation),
    post withPhone = some (.ok (.sampleCaptured default), s') ∧ a.Sampled "hook" (some withPhone) a' ∧
    s'.db.automation? default = .ok (some a') := by
  obtain ⟨s', hpost⟩ : ∃ s', post withPhone = some (.ok (.sampleCaptured default), s') :=
    exists_captured (by decide +kernel)
  have hkeeps : ((attentive.db.automation? default).toOption.bind id).all (fun a =>
      a.nodes.all fun n => n.encode.numbers.isEmpty) = true := by
    decide +kernel
  obtain ⟨-, before, a, after, a', -, -, hsampled, hkept, -⟩ :=
    handle_captured attentive_identified parse?_withPhone (List.forall_mem_nil _) (fun a hget n hn x hx => by
      rw [hget] at hkeeps
      have hempty := List.all_eq_true.mp hkeeps n hn
      rw [List.isEmpty_iff.mp hempty] at hx
      cases hx) hpost
  exact ⟨s', a, a', hpost, hsampled, (hkept (by decide)).1⟩

end Intake
end Outreach
