import Outreach.Proofs.Database.Settings
import Outreach.Proofs.Service.Counters
import Outreach.Proofs.Service.Dispatch
import Outreach.Proofs.Service.Interleaving

/-! Captures of samples beside saves and changes of the status. A capture saves the automation as it was listed, and with
it the settings of that time. So it undoes what was changed since, and nothing else is ever undone. -/
namespace Outreach
open Program Service

namespace Settings
variable {id : Uuid} {x : Settings}

def under (id : Uuid) (x : Settings) : Exchange → Settings
  | ⟨.updateAutomation a, .ok _⟩ => if a.id = id then a.settings else x
  | ⟨.setStatus target status, .ok true⟩ => if target = id then { x with status := status } else x
  | _ => x

def after (id : Uuid) (x : Settings) (t : List Deed) : Settings := t.foldl (fun x d => x.under id d.exchange) x

theorem after_append (id : Uuid) (x : Settings) (t t' : List Deed) : x.after id (t ++ t') = (x.after id t).after id t' :=
  List.foldl_append

theorem after_concat (id : Uuid) (x : Settings) (t : List Deed) (d : Deed) :
    x.after id (t ++ [d]) = (x.after id t).under id d.exchange :=
  after_append id x t [d]

theorem under_of_keepsGraphs {e : Exchange} (h : e.request.KeepsGraphs) : x.under id e = x := by
  unfold under
  split
  · exact h.elim
  · exact h.elim
  · rfl

end Settings

namespace Service
open Database
variable {around : Surroundings} {r : Request} {s s' : Service} {x : r.Reply} {id : Uuid} {y : Settings}

theorem Answers.identified (h : Answers around r s x s') (hs : s.db.Identified) : s'.db.Identified := by
  obtain ⟨clock, network, seed, h⟩ := h
  have hanswer : (answer { around with network := network } r { s with clock := clock, seed := seed }).2.db.Identified :=
    answer_identified r { s with clock := clock, seed := seed } hs
  rwa [h] at hanswer

/-- What is stored is what the answers make of it, as long as nodes come back from where they are stored. -/
theorem Answers.shows (h : Answers around r s x s') (hshows : s.db.Shows id y)
    (hr : r.KeepsGraphs ∨ (∃ b, r = .updateAutomation b ∧ (b.id = id → b.Restorable)) ∨
      ∃ target status, r = .setStatus target status) : s'.db.Shows id (y.under id ⟨r, x⟩) := by
  obtain hkeeps | ⟨b, rfl, hb⟩ | ⟨target, status, rfl⟩ := hr
  · rw [Settings.under_of_keepsGraphs hkeeps]
    exact hshows.sameGraphs (h.sameGraphs hkeeps)
  · obtain ⟨clock, network, seed, h⟩ := h
    cases x with
    | error e =>
      rw [writing_eq_error h]
      exact hshows
    | ok _ =>
      obtain ⟨db, hupdate, rfl⟩ := writing_eq_ok h
      exact hshows.updateAutomation hupdate hb
  · obtain ⟨clock, network, seed, h⟩ := h
    cases h
    have hstatus := hshows.setStatus target status
    have hunder : y.under id ⟨.setStatus target status, .ok (s.db.setStatus target status).1⟩ =
        if target = id then { y with status := status } else y := by
      by_cases htarget : target = id
      · rw [htarget, hshows.found status]
        rfl
      · rw [if_neg htarget]
        cases (s.db.setStatus target status).1 with
        | true => exact if_neg htarget
        | false => rfl
    rw [← hunder] at hstatus
    exact hstatus

end Service

def Errand.manages : Errand → Bool
  | .save _ | .status .. => true
  | .run .. | .call .. => false

namespace Deed

def isManaged (errands : Nat → Errand) (d : Deed) : Bool := d.owner.any fun i => (errands i).manages

def managed (errands : Nat → Errand) (t : List Deed) : List Deed := t.filter (isManaged errands)

theorem after_managed_concat (errands : Nat → Errand) (id : Uuid) (x : Settings) (t : List Deed) (d : Deed) :
    x.after id (managed errands (t ++ [d])) =
      if d.isManaged errands then (x.after id (managed errands t)).under id d.exchange
      else x.after id (managed errands t) := by
  rw [managed, List.filter_append, List.filter_singleton, ← managed]
  cases d.isManaged errands with
  | true => exact Settings.after_concat ..
  | false => exact congrArg (x.after id) (List.append_nil _)

/-- Automations are listed for a call, and once other deeds are done one of them is saved with the sample. -/
inductive Captures (errands : Nat → Errand) (id : Uuid) (t before : List Deed) : List Deed → Automation → Prop where
  | mk {i : Nat} {webhookId : String} {body : Json} {found : List Automation} {between : List Deed} {b : Automation}
    (calls : errands i = .call webhookId body) (same : b.id = id)
    (order : before ++ ⟨some i, ⟨.listAutomations .all, .ok found⟩⟩ :: between ++
      [⟨some i, ⟨.updateAutomation b, .ok ()⟩⟩] <+: t) :
    Captures errands id t before (⟨some i, ⟨.listAutomations .all, .ok found⟩⟩ :: between) b

/-- What changes graphs: it is saved, its status is changed, or it is saved with a sample as it was listed before. -/
inductive Changes (errands : Nat → Errand) (before : List Deed) : Deed → Prop where
  | save {i : Nat} {a : Automation} (saves : errands i = .save a) (x : Except RepositoryError Unit) :
    Changes errands before ⟨some i, ⟨.updateAutomation a, x⟩⟩
  | status {i : Nat} {id : Uuid} {status : AutomationStatus} (sets : errands i = .status id status)
    (x : Except RepositoryError Bool) : Changes errands before ⟨some i, ⟨.setStatus id status, x⟩⟩
  | capture {i : Nat} {webhookId : String} {body : Json} {found : List Automation} {a : Automation}
    (calls : errands i = .call webhookId body) (listed : ⟨some i, ⟨.listAutomations .all, .ok found⟩⟩ ∈ before)
    (receives : Intake.receiver? webhookId found = some a) (listening : a.listensOn? webhookId = some true)
    (x : Except RepositoryError Unit) :
    Changes errands before ⟨some i, ⟨.updateAutomation (a.captureSample webhookId body), x⟩⟩

end Deed

/-- A request captures a sample, or it leaves all graphs. -/
theorem Intake.Handled.captures_or_keeps {settings : EngineSettings} {limit : Nat} {webhookId : String} {body : Json}
    {l : List Exchange} {x : Except IntakeError IntakeOutcome} (h : Handled settings limit webhookId body l x) :
    (∃ found a saved, receiver? webhookId found = some a ∧ a.listensOn? webhookId = some true ∧
      l = [⟨.listAutomations .all, .ok found⟩, ⟨.updateAutomation (a.captureSample webhookId body), saved⟩]) ∨
    ∀ e ∈ l, e.request.KeepsGraphs := by
  cases h with
  | captured found listening saved => exact .inl ⟨_, _, saved, found, listening, rfl⟩
  | unlisted | unknown | phoneless => exact .inr (List.forall_mem_singleton.mpr trivial)
  | served found quiet given served =>
    exact .inr (List.forall_mem_cons.mpr ⟨trivial, fun e he => (served.isIntake e he).keepsGraphs⟩)

section
variable {around : Surroundings} {errands : Nat → Errand} {s s' : Service} {t pre : List Deed} {d : Deed} {i : Nat}
  (h : Interleaves around Request.KeepsGraphs (fun i => (errands i).program around) s t s')
include h

theorem handled_of_call {webhookId : String} {body : Json} (hcall : errands i = .call webhookId body)
    (hi : Deed.own i t ≠ []) :
    ∃ x, Intake.Handled around.settings around.limit webhookId body (Deed.own i t) x := by
  obtain ⟨x, hyields⟩ := h.whole i hi
  rw [hcall] at hyields
  obtain ⟨y, l₁, l₂, hl, hhandle, rfl, -⟩ := Program.yields_bind.mp hyields
  rw [List.append_nil] at hl
  exact ⟨y, hl ▸ Intake.handle_yields_iff.mp hhandle⟩

theorem keeps_or_changes (hpre : pre ++ [d] <+: t) : d.exchange.request.KeepsGraphs ∨ d.Changes errands pre := by
  have hd : d ∈ t := hpre.subset (List.mem_append_right _ List.mem_cons_self)
  obtain ⟨owner, r, x⟩ := d
  cases owner with
  | none => exact .inl (h.elsewhere _ hd rfl)
  | some i =>
    have he : ⟨r, x⟩ ∈ Deed.own i t := Deed.mem_own.mpr hd
    obtain ⟨result, hyields⟩ := h.whole i (List.ne_nil_of_mem he)
    -- Whose deed it is decides what it may ask. A run asks for no graph, and a call for one at most, which it has
    -- listed before.
    cases herrand : errands i with
    | run f resumeFrom =>
      rw [herrand] at hyields
      obtain ⟨y, l₁, l₂, hl, hrun, rfl, -⟩ := Program.yields_bind.mp hyields
      rw [hl, List.append_nil] at he
      exact .inl ((RunFrame.run_yields_iff.mp hrun).isFiring _ he).keepsGraphs
    | call webhookId body =>
      obtain ⟨y, hhandled⟩ := handled_of_call h herrand (List.ne_nil_of_mem he)
      obtain ⟨found, a, saved, hfound, hlistens, hown⟩ | hkeeps := hhandled.captures_or_keeps
      · obtain hfirst | hlisted := Deed.first_before hpre hown
        · cases hfirst
          exact .inl trivial
        · rw [hown] at he
          obtain hfirst | hlast := List.mem_cons.mp he
          · cases hfirst
            exact .inl trivial
          · cases List.mem_singleton.mp hlast
            exact .inr (.capture herrand hlisted hfound hlistens saved)
      · exact .inl (hkeeps _ he)
    | save a =>
      rw [herrand] at hyields
      have hmeets : ((Errand.save a).program around).Meets ⟨(· = .updateAutomation a), fun _ _ => True⟩ fun _ => True :=
        Program.meets_bind (Management.update_meets rfl) fun _ _ => trivial
      obtain rfl : r = .updateAutomation a := (hmeets.of_yields hyields fun _ _ => trivial).1 _ he
      exact .inr (.save herrand x)
    | status id status =>
      rw [herrand] at hyields
      have hmeets : ((Errand.status id status).program around).Meets
          ⟨fun r => r.KeepsGraphs ∨ r = .setStatus id status, fun _ _ => True⟩ fun _ => True :=
        Program.meets_bind (Management.setStatus_meets id status (.inl trivial) (.inr rfl)) fun _ _ => trivial
      obtain hkeeps | hset := (hmeets.of_yields hyields fun _ _ => trivial).1 _ he
      · exact .inl hkeeps
      · obtain rfl : r = .setStatus id status := hset
        exact .inr (.status herrand x)

end

structure Course (id : Uuid) (x : Settings) (t : List Deed) (s : Service) : Prop where
  identified : s.db.Identified
  shows : s.db.Shows id (x.after id t)
  told : ∀ before owner found, before ++ [⟨owner, ⟨.listAutomations .all, .ok found⟩⟩] <+: t →
    ∀ b ∈ found, b.id = id → b.settings = x.after id before ∧ b.KeepsNodes

section
variable {around : Surroundings} {errands : Nat → Errand} {id : Uuid} {x : Settings} {s s₁ s₂ : Service}
  {t pre : List Deed} {d : Deed}

theorem Course.concat (h : Course id x pre s₁) (hd : d.exchange.request.KeepsGraphs ∨ d.Changes errands pre)
    (hsaves : ∀ i b, errands i = .save b → b.id = id → b.KeepsNodes)
    (hbodies : ∀ i webhookId body, errands i = .call webhookId body → body.IsSample)
    (hanswers : Answers around d.exchange.request s₁ d.exchange.reply s₂) : Course id x (pre ++ [d]) s₂ := by
  refine ⟨hanswers.identified h.identified, ?_, ?_⟩
  · rw [Settings.after_concat]
    refine hanswers.shows h.shows ?_
    obtain hkeeps | hchanges := hd
    · exact .inl hkeeps
    cases hchanges with
    | save saves x => exact .inr (.inl ⟨_, rfl, fun hid => (hsaves _ _ saves hid).restorable⟩)
    | status sets x => exact .inr (.inr ⟨_, _, rfl⟩)
    | @capture i webhookId body found a calls listed receives listening x =>
      refine .inr (.inl ⟨_, rfl, fun hid => ?_⟩)
      obtain ⟨before, between, hsplit⟩ := List.append_of_mem listed
      have htold := h.told before (some i) found (by rw [hsplit]; exact ⟨between, by simp⟩) a
        (List.mem_of_find?_eq_some receives) hid
      exact htold.2.restorable_captureSample listening (hbodies _ _ _ calls)
  · intro before owner found hprefix b hb hid
    obtain hlast | hbefore := List.prefix_concat_iff.mp hprefix
    · obtain ⟨rfl, rfl⟩ : before = pre ∧ (⟨owner, ⟨.listAutomations .all, .ok found⟩⟩ : Deed) = d := by
        simpa using hlast
      have hlisted : Except.ok found = s₁.db.listAutomations .all := (hanswers.lookup trivial).1
      have hget := h.identified.automation? hlisted.symm hb
      rw [hid] at hget
      exact h.shows.of_get hget
    · exact h.told before owner found hbefore b hb hid

end

section
variable {around : Surroundings} {errands : Nat → Errand} {id : Uuid} {a : Automation} {s s' : Service} {t : List Deed}
  (hdb : s.db.Identified) (hget : s.db.automation? id = .ok (some a)) (hnumbers : ∀ n ∈ a.nodes, n.KeepsNumbers)
  (hsaves : ∀ i b, errands i = .save b → b.id = id → b.KeepsNodes)
  (hbodies : ∀ i webhookId body, errands i = .call webhookId body → body.IsSample)
  (h : Interleaves around Request.KeepsGraphs (fun i => (errands i).program around) s t s')
include hdb hget hnumbers hsaves hbodies h

theorem course_of_interleaves : Course id a.settings t s' := by
  have hstart : Course id a.settings [] s := by
    refine ⟨hdb, Database.shows_of_get hget hnumbers, fun before owner found hprefix => ?_⟩
    exact absurd (List.prefix_nil.mp hprefix) (List.append_ne_nil_of_right_ne_nil _ (List.cons_ne_nil _ _))
  refine h.history.keeps List.prefix_rfl hstart fun pre d s₁ s₂ hpre hcourse hanswers => ?_
  exact hcourse.concat (keeps_or_changes h hpre) hsaves hbodies hanswers

/-- A capture saves the settings of the time when the automation was listed. -/
theorem settings_of_captures {before during : List Deed} {b : Automation}
    (hcaptures : Deed.Captures errands id t before during b) : b.settings = a.settings.after id before := by
  have hcourse := course_of_interleaves hdb hget hnumbers hsaves hbodies h
  cases hcaptures with
  | @mk i webhookId body found between b calls same order =>
    have hlist : ⟨.listAutomations .all, .ok found⟩ ∈ Deed.own i t := Deed.mem_own.mpr (order.subset (by simp))
    have hupdate : ⟨.updateAutomation b, .ok ()⟩ ∈ Deed.own i t := Deed.mem_own.mpr (order.subset (by simp))
    obtain ⟨y, hhandled⟩ := handled_of_call h calls (List.ne_nil_of_mem hlist)
    obtain ⟨found', a', saved, hfound, hlistens, hown⟩ | hkeeps := hhandled.captures_or_keeps
    · rw [hown] at hlist hupdate
      obtain rfl : found = found' := by simpa using hlist
      obtain ⟨rfl, -⟩ : b = a'.captureSample webhookId body ∧ _ := by simpa using hupdate
      rw [Automation.settings_captureSample hlistens]
      refine (hcourse.told before (some i) found (.trans ?_ order) a' (List.mem_of_find?_eq_some hfound) same).1
      exact ⟨between ++ [⟨some i, ⟨.updateAutomation (a'.captureSample webhookId body), .ok ()⟩⟩], by simp⟩
    · exact (hkeeps _ hupdate).elim

section
variable (hcurrent : ∀ before during b, Deed.Captures errands id t before during b →
  a.settings.after id (Deed.managed errands before) = a.settings.after id (Deed.managed errands (before ++ during)))
include hcurrent

/-- A capture that is not overtaken undoes nothing, and whatever else is asked is asked by the user. -/
theorem survives_step {p : List Deed} {d : Deed} (hp : p ++ [d] <+: t)
    (hbefore : ∀ q, q <+: p → a.settings.after id q = a.settings.after id (Deed.managed errands q)) :
    a.settings.after id (p ++ [d]) = a.settings.after id (Deed.managed errands (p ++ [d])) := by
  rw [Settings.after_concat, Deed.after_managed_concat, ← hbefore p List.prefix_rfl]
  obtain hkeeps | hchanges := keeps_or_changes h hp
  · rw [Settings.under_of_keepsGraphs hkeeps, ite_self]
  cases hchanges with
  | save saves x => rw [if_pos (by simp [Deed.isManaged, saves, Errand.manages])]
  | status sets x => rw [if_pos (by simp [Deed.isManaged, sets, Errand.manages])]
  | @capture i webhookId body found b calls listed receives listening saved =>
    rw [if_neg (by simp [Deed.isManaged, calls, Errand.manages])]
    cases saved with
    | error e => rfl
    | ok _ =>
      by_cases hid : (b.captureSample webhookId body).id = id
      · obtain ⟨before, between, rfl⟩ := List.append_of_mem listed
        have hcaptures : Deed.Captures errands id t before _ _ := .mk calls hid hp
        calc (if (b.captureSample webhookId body).id = id then (b.captureSample webhookId body).settings else _)
          _ = (b.captureSample webhookId body).settings := if_pos hid
          _ = a.settings.after id before := settings_of_captures hdb hget hnumbers hsaves hbodies h hcaptures
          _ = a.settings.after id (Deed.managed errands before) := hbefore before (List.prefix_append _ _)
          _ = a.settings.after id (Deed.managed errands _) := hcurrent _ _ _ hcaptures
          _ = a.settings.after id _ := (hbefore _ List.prefix_rfl).symm
      · exact if_neg hid

theorem survives_run {p : List Deed} (hp : p <+: t) :
    ∀ q, q <+: p → a.settings.after id q = a.settings.after id (Deed.managed errands q) := by
  induction p using List.reverseRecOn with
  | nil =>
    intro q hq
    rw [List.prefix_nil.mp hq]
    rfl
  | append_singleton p d ih =>
    have hbefore := ih ((List.prefix_append _ _).trans hp)
    intro q hq
    obtain rfl | hq := List.prefix_concat_iff.mp hq
    · exact survives_step hdb hget hnumbers hsaves hbodies h hcurrent hp hbefore
    · exact hbefore q hq

end

/-- Beside captures, what is stored is what was saved or changed last, and a capture saves again what there was when the
automation was listed for it. So no change is undone, at any time, exactly when no capture is overtaken by changes that
come to something. -/
theorem managed_survives_iff :
    (∃ b, s'.db.uncounted.automation? id = .ok (some b) ∧ b.settings = a.settings.after id t) ∧
    (∀ b, s'.db.automation? id = .ok (some b) → b.settings = a.settings.after id t) ∧
    (∀ before during b, Deed.Captures errands id t before during b → b.settings = a.settings.after id before) ∧
    ((∀ p, p <+: t → a.settings.after id p = a.settings.after id (Deed.managed errands p)) ↔
      ∀ before during b, Deed.Captures errands id t before during b →
        a.settings.after id (Deed.managed errands before) =
          a.settings.after id (Deed.managed errands (before ++ during))) := by
  have hcourse := course_of_interleaves hdb hget hnumbers hsaves hbodies h
  have hsaved {before during : List Deed} {b : Automation} (hcaptures : Deed.Captures errands id t before during b) :=
    settings_of_captures hdb hget hnumbers hsaves hbodies h hcaptures
  refine ⟨?_, fun b hb => (hcourse.shows.of_get hb).1, fun _ _ _ => hsaved, ?_, ?_⟩
  · obtain ⟨b, hb, hsettings, -⟩ := hcourse.shows
    exact ⟨b, hb, hsettings⟩
  · intro hsurvives before during b hcaptures
    have hsettings := hsaved hcaptures
    cases hcaptures with
    | @mk i webhookId body found between b calls same order =>
      have hcapture : ¬ Deed.isManaged errands ⟨some i, ⟨.updateAutomation b, .ok ()⟩⟩ := by
        simp [Deed.isManaged, calls, Errand.manages]
      have hbefore : before <+: t := ((List.prefix_append _ _).trans (List.prefix_append _ _)).trans order
      have hafter := hsurvives _ order
      rw [Settings.after_concat, Deed.after_managed_concat, if_neg hcapture] at hafter
      rw [← hsurvives before hbefore, ← hafter, ← hsettings]
      exact (if_pos same).symm
  · intro hcurrent p hp
    exact survives_run hdb hget hnumbers hsaves hbodies h hcurrent hp p List.prefix_rfl

end
section
open Intake

def beside : Nat → Errand
  | 0 => .status default .paused
  | _ => .call "hook" withPhone

theorem isSample_withPhone : withPhone.IsSample where
  canonical := Json.parse?_canonical parse?_withPhone
  numbers := List.forall_mem_nil _
  depth := by decide

/-- The automation that waits is saved with a sample after it was paused. -/
theorem exists_late : ∃ found a s' b, attentive.db.listAutomations .all = .ok found ∧ receiver? "hook" found = some a ∧
    a.listensOn? "hook" = some true ∧ attentive.db.automation? default = .ok (some a) ∧
    (∀ n ∈ a.nodes, n.KeepsNumbers) ∧
    answer .offline (.updateAutomation (a.captureSample "hook" withPhone))
      (answer .offline (.setStatus default .paused) attentive).2 = (.ok (), s') ∧
    s'.db.automation? default = .ok (some b) ∧ b.status = .active := by
  have hcourse : (attentive.db.listAutomations .all).toOption.bind (fun found => (receiver? "hook" found).bind fun a =>
      let y := answer .offline (.updateAutomation (a.captureSample "hook" withPhone))
        (answer .offline (.setStatus default .paused) attentive).2
      ((y.2.db.automation? default).toOption.bind id).map fun b => (a.listensOn? "hook", a.id,
        a.nodes.all fun n => n.encode.numbers.isEmpty, y.1.toOption, b.status)) =
      some (some true, default, true, some (), .active) := by
    decide +kernel
  obtain ⟨found, hfound, hcourse⟩ := Option.bind_eq_some_iff.mp hcourse
  obtain ⟨a, ha, hcourse⟩ := Option.bind_eq_some_iff.mp hcourse
  obtain ⟨b, hb, hcourse⟩ := Option.map_eq_some_iff.mp hcourse
  simp only [Prod.mk.injEq] at hcourse
  obtain ⟨hlistens, hid, hnumbers, hsaved, hactive⟩ := hcourse
  obtain ⟨stored, hstored, rfl⟩ := Option.bind_eq_some_iff.mp hb
  have hlist : attentive.db.listAutomations .all = .ok found := eq_ok_of_toOption hfound
  have hget := attentive_identified.automation? hlist (List.mem_of_find?_eq_some ha)
  rw [hid] at hget
  refine ⟨found, a, _, b, hlist, ha, hlistens, hget, fun n hn x hx => ?_, Prod.ext (eq_ok_of_toOption hsaved) rfl,
    eq_ok_of_toOption hstored, hactive⟩
  have hempty := List.all_eq_true.mp hnumbers n hn
  rw [List.isEmpty_iff.mp hempty] at hx
  cases hx

/-- The automation is listed for a webhook request, then it is paused, and then it is saved with the sample. -/
theorem exists_paused : ∃ found a s' b, attentive.db.automation? default = .ok (some a) ∧
    (∀ n ∈ a.nodes, n.KeepsNumbers) ∧
    Interleaves .offline Request.KeepsGraphs (fun i => (beside i).program .offline) attentive
      (Deed.amid [⟨.listAutomations .all, .ok found⟩] [⟨.setStatus default .paused, .ok true⟩]
        [⟨.updateAutomation (a.captureSample "hook" withPhone), .ok ()⟩]) s' ∧
    s'.db.automation? default = .ok (some b) ∧ b.status = .active := by
  obtain ⟨found, a, s', b, hlist, hfound, hlistens, hget, hnumbers, hsaved, hb, hactive⟩ := exists_late
  have hbefore : Answered (answer .offline) attentive [⟨.listAutomations .all, .ok found⟩] attentive :=
    answered_cons.mpr ⟨hlist, .nil _⟩
  have hinner : Runs (answer .offline) ((beside 0).program .offline) attentive [⟨.setStatus default .paused, .ok true⟩]
      none (answer .offline (.setStatus default .paused) attentive).2 := by
    refine ⟨⟨.ok true, [], rfl, rfl, rfl⟩, answered_cons.mpr ⟨?_, .nil _⟩⟩
    exact congrArg Except.ok (by decide)
  have hafter : Answered (answer .offline) (answer .offline (.setStatus default .paused) attentive).2
      [⟨.updateAutomation (a.captureSample "hook" withPhone), .ok ()⟩] s' := by
    rw [answered_cons, hsaved]
    exact ⟨rfl, .nil s'⟩
  have houter : ((beside 1).program .offline).Yields [⟨.listAutomations .all, .ok found⟩,
      ⟨.updateAutomation (a.captureSample "hook" withPhone), .ok ()⟩] none := by
    have hcapture : (handle Surroundings.offline.settings 8 "hook" withPhone).Yields _ _ :=
      handle_yields_iff.mpr (.captured hfound hlistens (.ok ()))
    exact Program.yields_bind.mpr ⟨_, _, [], (List.append_nil _).symm, hcapture, rfl, rfl⟩
  exact ⟨found, a, s', b, hget, hnumbers, .amid hbefore hinner hafter houter, hb, hactive⟩

/-- A capture undoes the pause that came after the automation was listed for it: in the end the automation is active. -/
theorem pause_undone : ∃ t s' b,
    Interleaves .offline Request.KeepsGraphs (fun i => (beside i).program .offline) attentive t s' ∧
    Deed.managed beside t = [⟨some 0, ⟨.setStatus default .paused, .ok true⟩⟩] ∧
    s'.db.automation? default = .ok (some b) ∧ b.status = .active := by
  obtain ⟨found, a, s', b, -, -, h, hb, hactive⟩ := exists_paused
  exact ⟨_, s', b, h, rfl, hb, hactive⟩

/-- The capture there is overtaken by the pause. -/
theorem managed_survives_iff_paused : ∃ t s' a, attentive.db.automation? default = .ok (some a) ∧
    Interleaves .offline Request.KeepsGraphs (fun i => (beside i).program .offline) attentive t s' ∧
    (a.settings.after default (Deed.managed beside t)).status = .paused ∧
    (∀ b, s'.db.automation? default = .ok (some b) → b.settings = a.settings.after default t) ∧
    (a.settings.after default t).status = .active ∧
    ¬ ∀ before during b, Deed.Captures beside default t before during b →
      a.settings.after default (Deed.managed beside before) =
        a.settings.after default (Deed.managed beside (before ++ during)) := by
  obtain ⟨found, a, s', b, hget, hnumbers, h, hb, hactive⟩ := exists_paused
  have hbodies (i : Nat) (webhookId : String) (body : Json) (hcall : beside i = .call webhookId body) :
      body.IsSample := by
    cases i with
    | zero => cases hcall
    | succ i =>
      cases hcall
      exact isSample_withPhone
  have hsaves (i : Nat) (b : Automation) (hsave : beside i = .save b) : b.id = default → b.KeepsNodes := by
    cases i <;> cases hsave
  obtain ⟨-, hstored, -, hiff⟩ := managed_survives_iff attentive_identified hget hnumbers hsaves hbodies h
  have hend := hstored b hb
  refine ⟨_, s', a, hget, h, rfl, hstored, hend ▸ hactive, fun hcurrent => ?_⟩
  have hsurvives := hiff.mpr hcurrent _ List.prefix_rfl
  rw [← hend] at hsurvives
  cases hactive.symm.trans (congrArg Settings.status hsurvives)

end
end Outreach
