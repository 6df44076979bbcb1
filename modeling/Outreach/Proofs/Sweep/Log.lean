import Mathlib.Data.List.Nodup
import Outreach.Proofs.Sweep.Phase

/-! What is told of a sweep. Its log is one listing and then one verdict for each task in order: the claim was
lost and that is all, or it was won and the run and its outcome follow, or it failed and that is recorded. -/
namespace Outreach

structure Sweeper where
  phase : SweepPhase
  log : List SweepEvent

namespace SweepEvent

def won? : SweepEvent → Option Int
  | .won t => some t.id
  | _ => none

def lost? : SweepEvent → Option Int
  | .lost t => some t.id
  | _ => none

def refused? : SweepEvent → Option Int
  | .refused t _ => some t.id
  | _ => none

def recorded? : SweepEvent → Option Int
  | .recorded t _ _ => some t.id
  | _ => none

def ran? (id : Int) : SweepEvent → Option Request
  | .ran t r => if t.id = id then some r else none
  | _ => none

def verdict? : SweepEvent → Option Int
  | .won t | .lost t | .refused t _ => some t.id
  | _ => none

end SweepEvent

open SweepEvent

def SweepPhase.current : SweepPhase → Option Int
  | .resuming t _ _ _ | .recording t _ _ _ => some t.id
  | _ => none

theorem SweepPhase.current_goOn (s : SweepSummary) (rest : List ScheduledTask) : (goOn s rest).current = none := by
  cases rest <;> rfl

theorem SweepPhase.current_follow (t : ScheduledTask) (rest : List ScheduledTask) (s : SweepSummary)
    (run : Program (Except String Unit)) : (follow t rest s run).current = some t.id := by
  cases run <;> rfl

variable (settings : EngineSettings) (limit : Nat)

inductive UnderWay (t : ScheduledTask) : List SweepEvent → Option (Option String) → Prop where
  | resuming {rs : List Request} {q : Program (Except String Unit)}
    (leads : (t.resume settings limit).run.Leads rs q) : UnderWay t (.won t :: rs.map (.ran t)) none
  | resumed {rs : List Request} {x : Except String Unit}
    (leads : (t.resume settings limit).run.Leads rs (.done x)) :
    UnderWay t (.won t :: rs.map (.ran t)) (some (SweepPhase.failure? x))
  | refused (e : RepositoryError) : UnderWay t [.refused t e] (some (some e.message))

inductive Settled : List SweepEvent → List ScheduledTask → SweepSummary → Prop where
  | nil : Settled [] [] ⟨0, 0, 0⟩
  | lost {l ts s} (h : Settled l ts s) (t : ScheduledTask) : Settled (l ++ [.lost t]) (ts ++ [t]) s.skip
  | recorded {l ts s} (h : Settled l ts s) {t : ScheduledTask} {m : List SweepEvent} {failure : Option String}
    (hm : UnderWay settings limit t m (some failure)) :
    Settled (l ++ (m ++ [.recorded t (statusAfter failure) failure])) (ts ++ [t]) (s.count failure)

def SettledOf (due rest : List ScheduledTask) (s : SweepSummary) (l : List SweepEvent) : Prop :=
  ∃ done, Settled settings limit l done s ∧ due = done ++ rest

namespace Sweeper

def Tells (w : Sweeper) : Prop :=
  match w.phase with
  | .starting | .listing _ => w.log = []
  | .claiming t rest s => ∃ due l, w.log = .listed due :: l ∧ SettledOf settings limit due (t :: rest) s l
  | .resuming t rest s run => ∃ (due : List ScheduledTask) (l : List SweepEvent) (rs : List Request),
      w.log = .listed due :: (l ++ .won t :: rs.map (.ran t)) ∧ SettledOf settings limit due (t :: rest) s l ∧
        (t.resume settings limit).run.Leads rs run
  | .recording t rest s failure => ∃ due l m, w.log = .listed due :: (l ++ m) ∧
      SettledOf settings limit due (t :: rest) s l ∧ UnderWay settings limit t m (some failure)
  | .ended (.ok s) => ∃ due l, w.log = .listed due :: l ∧ Settled settings limit l due s
  | .ended (.error e) => w.log = [.listingFailed e.cause]

def start : Sweeper := ⟨.starting, []⟩

def after (w : Sweeper) (x : SweepPhase × List SweepEvent) : Sweeper := ⟨x.1, w.log ++ x.2⟩

variable {settings limit}

theorem tells_goOn {due rest : List ScheduledTask} {s : SweepSummary} {l log : List SweepEvent}
    (h : SettledOf settings limit due rest s l) (hlog : log = .listed due :: l) :
    Tells settings limit ⟨.goOn s rest, log⟩ := by
  cases rest with
  | nil =>
    obtain ⟨done, hdone, rfl⟩ := h
    exact ⟨_, l, hlog, by rwa [List.append_nil]⟩
  | cons t rest => exact ⟨due, l, hlog, h⟩

theorem tells_follow {t : ScheduledTask} {due rest : List ScheduledTask} {s : SweepSummary}
    {run : Program (Except String Unit)} {l log : List SweepEvent} (rs : List Request)
    (h : SettledOf settings limit due (t :: rest) s l)
    (hlog : log = .listed due :: (l ++ .won t :: rs.map (.ran t)))
    (hrun : (t.resume settings limit).run.Leads rs run) : Tells settings limit ⟨.follow t rest s run, log⟩ := by
  cases run with
  | done x => exact ⟨due, l, _, hlog, h, .resumed hrun⟩
  | ask r next => exact ⟨due, l, rs, hlog, h, hrun⟩
  | endless => exact ⟨due, l, rs, hlog, h, hrun⟩

theorem tells_after {w : Sweeper} (h : w.Tells settings limit) {r : Request}
    {next : r.Reply → SweepPhase × List SweepEvent} (hask : w.phase.ask? settings limit = some ⟨r, next⟩)
    (x : r.Reply) : (w.after (next x)).Tells settings limit := by
  obtain ⟨phase, log⟩ := w
  cases phase with
  | starting =>
    cases hask
    obtain rfl : log = [] := h
    rfl
  | listing now =>
    cases hask
    obtain rfl : log = [] := h
    cases x with
    | ok due => exact tells_goOn ⟨[], .nil, rfl⟩ rfl
    | error e => rfl
  | claiming t rest s =>
    cases hask
    obtain ⟨due, l, rfl, hl⟩ := h
    match x with
    | .ok true => exact tells_follow [] hl rfl (.refl _)
    | .ok false =>
      obtain ⟨done, hdone, rfl⟩ := hl
      exact tells_goOn ⟨_, hdone.lost t, by simp⟩ rfl
    | .error e => exact ⟨due, l, _, rfl, hl, .refused e⟩
  | resuming t rest s run =>
    obtain ⟨due, l, rs, rfl, hl, hrun⟩ := h
    cases run with
    | ask r' next' =>
      cases hask
      exact tells_follow (rs ++ [r]) hl (by simp) (hrun.answered x)
    | done y => cases hask
    | endless => cases hask
  | recording t rest s failure =>
    cases hask
    obtain ⟨due, l, m, rfl, ⟨done, hdone, rfl⟩, hm⟩ := h
    have hlist : SettledOf settings limit (done ++ t :: rest) rest (s.count failure)
        (l ++ (m ++ [.recorded t (statusAfter failure) failure])) := ⟨_, hdone.recorded hm, by simp⟩
    exact tells_goOn hlist (by simp)
  | ended result => cases hask

/-- The task that is worked on was won before, or its claim failed. -/
theorem Tells.current {w : Sweeper} (h : w.Tells settings limit) {id : Int} (hid : w.phase.current = some id) :
    id ∈ w.log.filterMap won? ∨ id ∈ w.log.filterMap refused? := by
  obtain ⟨phase, log⟩ := w
  cases phase with
  | resuming t rest s run =>
    cases hid
    obtain ⟨due, l, rs, rfl, -, -⟩ := h
    exact .inl (List.mem_filterMap.mpr ⟨.won t, by simp, rfl⟩)
  | recording t rest s failure =>
    cases hid
    obtain ⟨due, l, m, rfl, -, hm⟩ := h
    cases hm with
    | resumed leads => exact .inl (List.mem_filterMap.mpr ⟨.won t, by simp, rfl⟩)
    | refused e => exact .inr (List.mem_filterMap.mpr ⟨.refused t e, by simp, rfl⟩)
  | _ => cases hid

/-- Every log is empty, tells of a listing that failed, or goes through the first of the listed tasks, of which
the last may be under way. -/
theorem Tells.log_cases {w : Sweeper} (h : w.Tells settings limit) :
    w.log = [] ∨ (∃ e, w.log = [.listingFailed e]) ∨
    ∃ due done s l m, w.log = .listed due :: (l ++ m) ∧ Settled settings limit l done s ∧
      (m = [] ∧ done <+: due ∨ ∃ t ended, UnderWay settings limit t m ended ∧ done ++ [t] <+: due) := by
  obtain ⟨phase, log⟩ := w
  cases phase with
  | starting => exact .inl h
  | listing now => exact .inl h
  | claiming t rest s =>
    obtain ⟨due, l, hlog, done, hdone, rfl⟩ := h
    rw [← List.append_nil l] at hlog
    exact .inr (.inr ⟨_, done, s, l, [], hlog, hdone, .inl ⟨rfl, List.prefix_append _ _⟩⟩)
  | resuming t rest s run =>
    obtain ⟨due, l, rs, hlog, ⟨done, hdone, rfl⟩, hrun⟩ := h
    exact .inr (.inr ⟨_, done, s, l, _, hlog, hdone, .inr ⟨t, none, .resuming hrun, rest, by simp⟩⟩)
  | recording t rest s failure =>
    obtain ⟨due, l, m, hlog, ⟨done, hdone, rfl⟩, hm⟩ := h
    exact .inr (.inr ⟨_, done, s, l, m, hlog, hdone, .inr ⟨t, _, hm, rest, by simp⟩⟩)
  | ended result =>
    cases result with
    | ok s =>
      obtain ⟨due, l, hlog, hdone⟩ := h
      rw [← List.append_nil l] at hlog
      exact .inr (.inr ⟨due, due, s, l, [], hlog, hdone, .inl ⟨rfl, List.prefix_rfl⟩⟩)
    | error e => exact .inr (.inl ⟨_, h⟩)

end Sweeper

variable {settings limit} {l m : List SweepEvent} {ts : List ScheduledTask} {t : ScheduledTask} {s : SweepSummary}
  {ended : Option (Option String)} {w : Sweeper}

theorem filterMap_map_ran {f : SweepEvent → Option Int} (h : ∀ r, f (.ran t r) = none) (rs : List Request) :
    (rs.map (SweepEvent.ran t)).filterMap f = [] := by
  induction rs with
  | nil => rfl
  | cons r rs ih => simp [h, ih]

theorem UnderWay.verdicts (h : UnderWay settings limit t m ended) : m.filterMap verdict? = [t.id] := by
  have hrs := filterMap_map_ran (f := verdict?) (t := t) fun _ => rfl
  cases h with
  | resuming leads => simp [verdict?, hrs]
  | resumed leads => simp [verdict?, hrs]
  | refused e => rfl

theorem Settled.verdicts (h : Settled settings limit l ts s) : l.filterMap verdict? = ts.map (·.id) := by
  induction h with
  | nil => rfl
  | lost h t ih => simp [ih, verdict?]
  | recorded h hm ih => simp [ih, hm.verdicts, verdict?]

theorem UnderWay.counts (h : UnderWay settings limit t m ended) : m.filterMap lost? = [] ∧
    (m.filterMap won?).length + (m.filterMap refused?).length = 1 := by
  have hlost := filterMap_map_ran (f := lost?) (t := t) fun _ => rfl
  have hwon := filterMap_map_ran (f := won?) (t := t) fun _ => rfl
  have hrefused := filterMap_map_ran (f := refused?) (t := t) fun _ => rfl
  cases h <;> simp [List.filterMap_cons, lost?, won?, refused?, hlost, hwon, hrefused]

theorem SweepSummary.count_eq (s : SweepSummary) (failure : Option String) :
    (s.count failure).skipped = s.skipped ∧
    (s.count failure).processed + (s.count failure).failed = s.processed + s.failed + 1 := by
  cases failure with
  | none => exact ⟨rfl, Nat.add_right_comm _ _ _⟩
  | some e => exact ⟨rfl, rfl⟩

/-- Lost claims are counted as skipped, and all other tasks as processed or failed. -/
theorem Settled.counts (h : Settled settings limit l ts s) : s.skipped = (l.filterMap lost?).length ∧
    s.processed + s.failed = (l.filterMap won?).length + (l.filterMap refused?).length := by
  induction h with
  | nil => exact ⟨rfl, rfl⟩
  | lost h t ih => simpa [SweepSummary.skip, List.filterMap_cons, lost?, won?, refused?] using ih
  | @recorded l ts s h t m failure hm ih =>
    have hcount := s.count_eq failure
    obtain ⟨hlost, hone⟩ := hm.counts
    simp [List.filterMap_cons, lost?, won?, refused?, hlost]
    omega

/-- Work on a task is told of only after its claim was won, or after the claim failed, which is then recorded. -/
def Accounted (l : List SweepEvent) : Prop :=
  (∀ t r, .ran t r ∈ l → t.id ∈ l.filterMap won?) ∧
    ∀ t status error, .recorded t status error ∈ l → t.id ∈ l.filterMap won? ∨
      ∃ e, .refused t e ∈ l ∧ status = .failed ∧ error = some e.message

theorem accounted_append (hl : Accounted l) (hm : Accounted m) : Accounted (l ++ m) := by
  refine ⟨fun t r h => ?_, fun t status error h => ?_⟩
  · rw [List.filterMap_append, List.mem_append]
    exact (List.mem_append.mp h).imp (hl.1 t r) (hm.1 t r)
  · rw [List.filterMap_append, List.mem_append]
    obtain h | h := List.mem_append.mp h
    · obtain h | ⟨e, he, hr⟩ := hl.2 t status error h
      · exact .inl (.inl h)
      · exact .inr ⟨e, List.mem_append_left _ he, hr⟩
    · obtain h | ⟨e, he, hr⟩ := hm.2 t status error h
      · exact .inl (.inr h)
      · exact .inr ⟨e, List.mem_append_right _ he, hr⟩

theorem accounted_of_idle (hran : ∀ t r, .ran t r ∉ l)
    (hrecorded : ∀ t status error, .recorded t status error ∉ l) :
    Accounted l :=
  ⟨fun t r h => absurd h (hran t r), fun t status error h => absurd h (hrecorded t status error)⟩

theorem UnderWay.accounted (h : UnderWay settings limit t m ended) : Accounted m := by
  have hwon (rs : List Request) : Accounted (.won t :: rs.map (.ran t)) := by
    refine ⟨fun u r hu => ?_, fun u status error hu => ?_⟩
    · simp at hu
      simp [won?, hu]
    · simp at hu
  cases h with
  | resuming leads => exact hwon _
  | resumed leads => exact hwon _
  | refused e => exact accounted_of_idle (by simp) (by simp)

theorem UnderWay.not_recorded (h : UnderWay settings limit t m ended) (u : ScheduledTask) (status : TaskStatus)
    (error : Option String) : .recorded u status error ∉ m := by
  cases h <;> simp

theorem UnderWay.accounted_recorded {failure : Option String} (h : UnderWay settings limit t m (some failure)) :
    Accounted (m ++ [.recorded t (statusAfter failure) failure]) := by
  refine ⟨fun u r hu => ?_, fun u status error hu => ?_⟩
  · have hm := h.accounted.1 u r (by simpa using hu)
    simp [hm]
  · obtain hu | hu := List.mem_append.mp hu
    · exact absurd hu (h.not_recorded u status error)
    · cases List.mem_singleton.mp hu
      cases h with
      | resumed leads => exact .inl (by simp [won?])
      | refused e => exact .inr ⟨e, by simp, rfl, rfl⟩

theorem Settled.accounted (h : Settled settings limit l ts s) : Accounted l := by
  induction h with
  | nil => exact accounted_of_idle (by simp) (by simp)
  | lost h t ih => exact accounted_append ih (accounted_of_idle (by simp) (by simp))
  | recorded h hm ih => exact accounted_append ih hm.accounted_recorded

theorem Sweeper.Tells.accounted (h : w.Tells settings limit) : Accounted w.log := by
  obtain hlog | ⟨e, hlog⟩ | ⟨due, done, s, l, m, hlog, hl, hm⟩ := h.log_cases <;> rw [hlog]
  · exact accounted_of_idle (by simp) (by simp)
  · exact accounted_of_idle (by simp) (by simp)
  · have hhead : Accounted [.listed due] := accounted_of_idle (by simp) (by simp)
    refine accounted_append hhead (accounted_append hl.accounted ?_)
    obtain ⟨rfl, -⟩ | ⟨t, failure, hm, -⟩ := hm
    · exact accounted_of_idle (by simp) (by simp)
    · exact hm.accounted

def Sweeper.ListsOnce (w : Sweeper) : Prop := ∀ due, .listed due ∈ w.log → (due.map (·.id)).Nodup

theorem Sweeper.Tells.verdicts_nodup (h : w.Tells settings limit) (hone : w.ListsOnce) :
    (w.log.filterMap verdict?).Nodup := by
  obtain hlog | ⟨e, hlog⟩ | ⟨due, done, s, l, m, hlog, hl, hm⟩ := h.log_cases
  · simp [hlog]
  · simp [hlog, List.filterMap_cons, verdict?]
  · have hdue := hone due (by simp [hlog])
    have hverdicts : w.log.filterMap verdict? = done.map (·.id) ++ m.filterMap verdict? := by
      simp [hlog, List.filterMap_cons, verdict?, ← hl.verdicts]
    rw [hverdicts]
    obtain ⟨rfl, hp⟩ | ⟨t, failure, hm, hp⟩ := hm
    · simpa using hdue.sublist (hp.sublist.map _)
    · have hsub := hdue.sublist (hp.sublist.map _)
      rw [List.map_append] at hsub
      rw [hm.verdicts]
      exact hsub

def ranFor (id : Int) (l : List SweepEvent) : List Request := l.filterMap (ran? id)

theorem ranFor_append (id : Int) (l m : List SweepEvent) : ranFor id (l ++ m) = ranFor id l ++ ranFor id m :=
  List.filterMap_append

theorem ranFor_of_not_won (h : ∀ t r, .ran t r ∈ l → t.id ∈ l.filterMap won?) {id : Int}
    (hid : id ∉ l.filterMap won?) : ranFor id l = [] := by
  refine List.filterMap_eq_nil_iff.mpr fun e he => ?_
  cases e with
  | ran t r =>
    refine if_neg fun ht => hid ?_
    rw [← ht]
    exact h t r he
  | _ => rfl

theorem ranFor_map_ran (t : ScheduledTask) (rs : List Request) : ranFor t.id (rs.map (.ran t)) = rs := by
  induction rs with
  | nil => rfl
  | cons r rs ih =>
    have hr : ran? t.id (.ran t r) = some r := if_pos rfl
    rw [List.map_cons, ranFor, List.filterMap_cons_some hr]
    exact congrArg (r :: ·) ih

def RunsOnce (settings : EngineSettings) (limit : Nat) (l : List SweepEvent) : Prop :=
  ∀ t, .won t ∈ l → ∃ q, (t.resume settings limit).run.Leads (ranFor t.id l) q

theorem UnderWay.runsOnce (h : UnderWay settings limit t m ended) : RunsOnce settings limit m := by
  intro u hu
  have hran (rs : List Request) : ranFor t.id (.won t :: rs.map (.ran t)) = rs := ranFor_map_ran t rs
  cases h with
  | resuming leads =>
    obtain rfl : u = t := by simpa using hu
    exact ⟨_, by rwa [hran]⟩
  | resumed leads =>
    obtain rfl : u = t := by simpa using hu
    exact ⟨_, by rwa [hran]⟩
  | refused e => simp at hu

theorem runsOnce_append (hl : RunsOnce settings limit l) (hm : RunsOnce settings limit m)
    (hal : ∀ t r, .ran t r ∈ l → t.id ∈ l.filterMap won?) (ham : ∀ t r, .ran t r ∈ m → t.id ∈ m.filterMap won?)
    (hone : ((l ++ m).filterMap won?).Nodup) : RunsOnce settings limit (l ++ m) := by
  intro t ht
  rw [List.filterMap_append] at hone
  have hdisjoint := List.disjoint_of_nodup_append hone
  rw [ranFor_append]
  obtain ht | ht := List.mem_append.mp ht
  · have hid : t.id ∈ l.filterMap won? := List.mem_filterMap.mpr ⟨_, ht, rfl⟩
    rw [ranFor_of_not_won ham (hdisjoint hid), List.append_nil]
    exact hl t ht
  · have hid : t.id ∈ m.filterMap won? := List.mem_filterMap.mpr ⟨_, ht, rfl⟩
    rw [ranFor_of_not_won hal fun h => hdisjoint h hid, List.nil_append]
    exact hm t ht

theorem won_sublist (l : List SweepEvent) : (l.filterMap won?).Sublist (l.filterMap verdict?) := by
  induction l with
  | nil => exact .slnil
  | cons e l ih =>
    cases e with
    | won t => exact ih.cons_cons t.id
    | lost t => exact ih.cons t.id
    | refused t e => exact ih.cons t.id
    | _ => exact ih

theorem UnderWay.runsOnce_recorded {failure : Option String} (h : UnderWay settings limit t m (some failure)) :
    RunsOnce settings limit (m ++ [.recorded t (statusAfter failure) failure]) := by
  refine runsOnce_append h.runsOnce (fun u hu => by simp at hu) h.accounted.1 (fun u r hu => by simp at hu) ?_
  have hone : (m.filterMap verdict?).Nodup := by simp [h.verdicts]
  simpa [List.filterMap_cons, won?] using hone.sublist (won_sublist m)

theorem Settled.runsOnce (h : Settled settings limit l ts s) (hone : (l.filterMap won?).Nodup) :
    RunsOnce settings limit l := by
  induction h with
  | nil => exact fun t ht => by simp at ht
  | @lost l ts s h t ih =>
    have hl : (l.filterMap won?).Nodup := hone.sublist ((List.sublist_append_left l _).filterMap _)
    exact runsOnce_append (ih hl) (fun u hu => by simp at hu) h.accounted.1 (fun u r hu => by simp at hu) hone
  | @recorded l ts s h t m failure hm ih =>
    have hl : (l.filterMap won?).Nodup := hone.sublist ((List.sublist_append_left l _).filterMap _)
    exact runsOnce_append (ih hl) hm.runsOnce_recorded h.accounted.1 hm.accounted_recorded.1 hone

/-- For each task that a sweep has won there was one run of it. -/
theorem Sweeper.Tells.runsOnce (h : w.Tells settings limit) (hone : (w.log.filterMap won?).Nodup) :
    RunsOnce settings limit w.log := by
  obtain hlog | ⟨e, hlog⟩ | ⟨due, done, s, l, m, hlog, hl, hm⟩ := h.log_cases
  · exact fun t ht => by simp [hlog] at ht
  · exact fun t ht => by simp [hlog] at ht
  · have hlm : RunsOnce settings limit (l ++ m) := by
      have hwon : ((l ++ m).filterMap won?).Nodup := by simpa [hlog, List.filterMap_cons, won?] using hone
      have hl' := hl.runsOnce (hwon.sublist ((List.sublist_append_left l m).filterMap _))
      obtain ⟨rfl, -⟩ | ⟨t, ended, hm, -⟩ := hm
      · rwa [List.append_nil]
      · exact runsOnce_append hl' hm.runsOnce hl.accounted.1 hm.accounted.1 hwon
    intro t ht
    rw [hlog] at ht ⊢
    exact hlm t (by simpa using ht)

/-- When no claim failed, the tasks with a verdict that were not won were lost. -/
theorem lost_eq {l : List SweepEvent} (h : (l.filterMap verdict?).Nodup) (hrefused : l.filterMap refused? = []) :
    l.filterMap lost? = (l.filterMap verdict?).filter (· ∉ l.filterMap won?) := by
  induction l with
  | nil => rfl
  | cons e l ih =>
    cases e with
    | won t =>
      obtain ⟨hnot, hl⟩ : t.id ∉ l.filterMap verdict? ∧ (l.filterMap verdict?).Nodup := by
        simpa [List.filterMap_cons, verdict?] using h
      have hrest := ih hl (by simpa [List.filterMap_cons, refused?] using hrefused)
      simp only [List.filterMap_cons, lost?, verdict?, won?, List.mem_cons]
      rw [List.filter_cons_of_neg (by simp), hrest]
      refine List.filter_congr fun id hid => ?_
      have hne : id ≠ t.id := fun heq => hnot (heq ▸ hid)
      simp [hne]
    | lost t =>
      obtain ⟨hnot, hl⟩ : t.id ∉ l.filterMap verdict? ∧ (l.filterMap verdict?).Nodup := by
        simpa [List.filterMap_cons, verdict?] using h
      have hrest := ih hl (by simpa [List.filterMap_cons, refused?] using hrefused)
      have hwon : t.id ∉ l.filterMap won? := fun hwon => hnot ((won_sublist l).subset hwon)
      simp only [List.filterMap_cons, lost?, verdict?, won?]
      rw [List.filter_cons_of_pos (by simpa using hwon)]
      exact congrArg (t.id :: ·) hrest
    | refused t e => simp [refused?] at hrefused
    | _ => exact ih h hrefused

end Outreach
