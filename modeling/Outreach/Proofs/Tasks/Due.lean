import Mathlib.Data.List.Nodup
import Outreach.Proofs.Tasks.Queue
import Outreach.Proofs.Tasks.Table

/-! Which tasks are listed as due. Their times are compared and put in order as texts; that comes to the same as
time exactly as long as the years keep in the order of their texts, and the listing fails with one row that it
cannot read. -/
namespace Outreach
open Instant

/-- The years of the two are in the same order as their texts. -/
def Instant.AgreesWith (t u : Instant) : Prop :=
  t.year = u.year ∨ (yearText t.year < yearText u.year ↔ t.year < u.year)

/-- Beside a year of four digits these are all years but those with a plus sign. -/
theorem Instant.agreesWith_iff {t u : Instant} (hu : u.IsPlain) : t.AgreesWith u ↔ t.year ≤ 9999 := by
  obtain ⟨hu₁, hu₂⟩ := hu
  rw [AgreesWith, yearText_lt_iff hu₁ hu₂]
  omega

theorem Instant.toMicros_eq_iff {t u : Instant} :
    t.toMicros = u.toMicros ↔ t.toMicros.le u.toMicros = true ∧ u.toMicros.le t.toMicros = true := by
  rw [le_iff, le_iff, Instant.mk.injEq]
  omega

namespace QueuedTask
variable {e : QueuedTask} {q : List QueuedTask} {now : Instant} {db : Database}

def shown (e : QueuedTask) : ScheduledTask := { e.view with context := e.task.context.reading?.getD .null }

theorem read_row_of_legible (h : e.IsProper) (hl : e.IsLegible) : e.row.read = .ok e.shown := by
  obtain ⟨t, ht⟩ := (reads_iff h).mpr hl
  obtain ⟨-, -, j, hj, rfl⟩ := (read_row_iff h).mp ht
  rw [ht, shown, hj]
  rfl

/-- Rows are read together when each of them can be read. -/
theorem mapM_read_rows {ts : List ScheduledTask} (h : ∀ e ∈ q, e.IsProper) :
    (q.map row).mapM TaskRow.read = .ok ts ↔ (∀ e ∈ q, e.IsLegible) ∧ ts = q.map shown := by
  induction q generalizing ts with
  | nil =>
    rw [List.map_nil, List.mapM_nil]
    simp [pure, Except.pure, eq_comm]
  | cons e q ih =>
    obtain ⟨he, hq⟩ := List.forall_mem_cons.mp h
    rw [List.map_cons, List.mapM_cons, List.forall_mem_cons]
    by_cases hl : e.IsLegible
    · rw [read_row_of_legible he hl]
      cases hrest : (q.map row).mapM TaskRow.read with
      | error err =>
        have hnot := fun h => ((@ih (q.map shown) hq).mpr ⟨h, rfl⟩).symm.trans hrest
        simp only [bind, Except.bind, reduceCtorEq, false_iff]
        exact fun hall => by cases hnot hall.1.2
      | ok us =>
        obtain ⟨hlegible, rfl⟩ := (ih hq).mp hrest
        simp only [bind, Except.bind, pure, Except.pure, Except.ok.injEq, List.map_cons]
        exact ⟨fun hts => ⟨⟨hl, hlegible⟩, hts.symm⟩, fun hts => hts.2.symm⟩
    · cases hread : e.row.read with
      | error err => simp [bind, Except.bind, hl]
      | ok t => exact absurd ((reads_iff he).mp ⟨t, hread⟩) hl

def textBefore (a b : QueuedTask) : Bool :=
  a.task.executeAt.microsText < b.task.executeAt.microsText ||
    (a.task.executeAt.microsText == b.task.executeAt.microsText && a.id ≤ b.id)

def before (a b : QueuedTask) : Bool :=
  !b.task.executeAt.toMicros.le a.task.executeAt.toMicros ||
    (a.task.executeAt.toMicros == b.task.executeAt.toMicros && a.id ≤ b.id)

def textDue (now : Instant) (q : List QueuedTask) : List QueuedTask :=
  (q.filter fun e => e.status == .pending && e.task.executeAt.microsText ≤ now.microsText).mergeSort textBefore

def due (now : Instant) (q : List QueuedTask) : List QueuedTask :=
  (q.filter fun e => e.status == .pending && e.task.executeAt.toMicros.le now.toMicros).mergeSort before

theorem isPending_row (e : QueuedTask) : Database.isPending e.row = (e.status == .pending) := by
  rw [Bool.eq_iff_iff, Database.isPending, beq_iff_eq, beq_iff_eq]
  exact TaskStatus.text_inj

theorem dueRows_eq (hdb : db.tasks = q.map row) : db.dueRows now = (textDue now q).map row := by
  have hfilter : (q.map row).filter (fun r => Database.isPending r && r.executeAt ≤ now.microsText) =
      (q.filter fun e => e.status == .pending && e.task.executeAt.microsText ≤ now.microsText).map row := by
    rw [List.filter_map]
    refine congrArg (List.map row) (List.filter_congr fun e _ => ?_)
    rw [Function.comp_apply, isPending_row]
    rfl
  rw [Database.dueRows, hdb, hfilter, textDue]
  refine (List.map_mergeSort fun a _ b _ => ?_).symm
  simp only [textBefore, row, TaskRow.ofNew]
  rfl

/-- The listing succeeds when every row in it can be read. -/
theorem dueTasks_eq_ok (hdb : db.tasks = q.map row) (hq : ∀ e ∈ q, e.IsProper) {ts : List ScheduledTask} :
    db.dueTasks now = .ok ts ↔ (∀ e ∈ textDue now q, e.IsLegible) ∧ ts = (textDue now q).map shown := by
  rw [Database.dueTasks, dueRows_eq hdb]
  refine mapM_read_rows fun e he => hq e ?_
  exact List.mem_of_mem_filter ((List.mergeSort_perm _ _).mem_iff.mp he)

theorem mem_textDue : e ∈ textDue now q ↔
    e ∈ q ∧ e.status = .pending ∧ e.task.executeAt.microsText ≤ now.microsText := by
  rw [textDue, (List.mergeSort_perm _ _).mem_iff, List.mem_filter]
  simp

theorem mem_due : e ∈ due now q ↔
    e ∈ q ∧ e.status = .pending ∧ e.task.executeAt.toMicros.le now.toMicros = true := by
  rw [due, (List.mergeSort_perm _ _).mem_iff, List.mem_filter]
  simp

/-- Among times of plain years both orders are the same. -/
theorem textBefore_eq {a b : QueuedTask} (ha : a.task.executeAt.Ordinary) (hb : b.task.executeAt.Ordinary)
    (hap : a.task.executeAt.IsPlain) (hbp : b.task.executeAt.IsPlain) : textBefore a b = before a b := by
  have hab := (microsText_le_iff ha.nanos hb.nanos).mpr ((agreesWith_iff hbp).mpr hap.2)
  have hba := (microsText_le_iff hb.nanos ha.nanos).mpr ((agreesWith_iff hap).mpr hbp.2)
  have heq : a.task.executeAt.microsText = b.task.executeAt.microsText ↔
      a.task.executeAt.toMicros = b.task.executeAt.toMicros := by
    rw [le_antisymm_iff, hab, hba, toMicros_eq_iff]
  have hlt : a.task.executeAt.microsText < b.task.executeAt.microsText ↔
      ¬ b.task.executeAt.toMicros.le a.task.executeAt.toMicros = true := by
    rw [← hba, not_le]
  rw [Bool.eq_iff_iff, textBefore, before]
  simp only [hlt, Bool.or_eq_true, Bool.and_eq_true, decide_eq_true_eq, beq_iff_eq, heq, Bool.not_eq_true,
    Bool.not_eq_true']

/-- Lists of tasks of one queue with the same ids have the same tasks. -/
theorem mem_iff_of_ids {l m : List QueuedTask} (hids : (q.map (·.id)).Nodup) (hl : ∀ a ∈ l, a ∈ q)
    (hm : ∀ a ∈ m, a ∈ q)
    (h : l.map (·.id) = m.map (·.id)) (he : e ∈ q) : e ∈ l ↔ e ∈ m := by
  have hmem {l : List QueuedTask} (hl : ∀ a ∈ l, a ∈ q) : e ∈ l ↔ e.id ∈ l.map (·.id) := by
    refine ⟨fun hel => List.mem_map_of_mem hel, fun hid => ?_⟩
    obtain ⟨a, ha, haid⟩ := List.mem_map.mp hid
    rwa [← List.inj_on_of_nodup_map hids (hl a ha) he haid]
  rw [hmem hl, hmem hm, h]

theorem textDue_eq (h : ∀ e ∈ q, e.status = .pending →
      (e.task.executeAt.microsText ≤ now.microsText ↔ e.task.executeAt.toMicros.le now.toMicros = true))
    (horder : ∀ a ∈ due now q, ∀ b ∈ due now q, textBefore a b = before a b) : textDue now q = due now q := by
  have hfilter : (q.filter fun e => e.status == .pending && decide (e.task.executeAt.microsText ≤ now.microsText)) =
      q.filter fun e => e.status == .pending && e.task.executeAt.toMicros.le now.toMicros := by
    refine List.filter_congr fun e he => ?_
    by_cases hp : e.status = .pending
    · rw [hp, Bool.eq_iff_iff, Bool.and_eq_true, Bool.and_eq_true, decide_eq_true_eq, h e he hp]
    · rw [beq_false_of_ne hp, Bool.false_and, Bool.false_and]
  rw [textDue, hfilter, due, ← List.map_id (List.mergeSort _ textBefore)]
  rw [List.map_mergeSort (s := before) fun a ha b hb => ?_, List.map_id]
  have hmem {a : QueuedTask} (ha : a ∈ q.filter fun e =>
      e.status == .pending && e.task.executeAt.toMicros.le now.toMicros) : a ∈ due now q :=
    (List.mergeSort_perm _ _).mem_iff.mpr ha
  exact horder a (hmem ha) b (hmem hb)

/-- The tasks are listed as due in the order of time exactly when the years of those pending agree with the present
one and each of them that is due can be read. -/
theorem dueTasks_iff (hnow : now.Ordinary) (hq : ∀ e ∈ q, e.IsProper) (hids : (q.map (·.id)).Nodup)
    (hdb : db.tasks = q.map row) :
    (db.dueTasks now).map (·.map fun t => (t.id, t.executeAt)) =
        .ok ((due now q).map fun e => (e.id, e.task.executeAt.toMicros)) ↔
      ∀ e ∈ q, e.status = .pending → e.task.executeAt.AgreesWith now ∧
        (e.task.executeAt.toMicros.le now.toMicros = true → e.IsLegible) := by
  have hagrees {e : QueuedTask} (he : e ∈ q) := microsText_le_iff (hq e he).executeAt.nanos hnow.nanos
  constructor
  · intro h e he hpending
    cases hts : db.dueTasks now with
    | error err => rw [hts] at h; cases h
    | ok ts =>
      obtain ⟨hlegible, rfl⟩ := (dueTasks_eq_ok hdb hq).mp hts
      rw [hts] at h
      have hlisted : (textDue now q).map (·.id) = (due now q).map (·.id) := by
        have hpairs := congrArg (List.map Prod.fst) (Except.ok.inj h)
        simpa [Function.comp_def, shown, view] using hpairs
      have hmem := mem_iff_of_ids hids (fun a ha => (mem_textDue.mp ha).1) (fun a ha => (mem_due.mp ha).1) hlisted he
      have htext : e.task.executeAt.microsText ≤ now.microsText ↔ e.task.executeAt.toMicros.le now.toMicros = true := by
        simpa [mem_textDue, mem_due, he, hpending] using hmem
      refine ⟨(hagrees he).mp htext, fun hdue => hlegible e ?_⟩
      exact hmem.mpr (mem_due.mpr ⟨he, hpending, hdue⟩)
  · intro h
    have hlegible : ∀ e ∈ due now q, e.IsLegible := by
      intro e he
      obtain ⟨he, hpending, hdue⟩ := mem_due.mp he
      exact (h e he hpending).2 hdue
    have htext : textDue now q = due now q := by
      refine textDue_eq (fun e he hpending => (hagrees he).mpr (h e he hpending).1) fun a ha b hb => ?_
      have hproper {e : QueuedTask} (he : e ∈ due now q) := (hq e (mem_due.mp he).1).executeAt
      exact textBefore_eq (hproper ha) (hproper hb) (hlegible a ha).executeAt (hlegible b hb).executeAt
    have hok := (dueTasks_eq_ok hdb hq).mpr ⟨by rwa [htext], rfl⟩
    rw [hok, htext]
    simp [Except.map, Function.comp_def, shown, view]

/-- A wait is over by its text when it is over by its time, exactly as long as the years agree, which beside a
present year of four digits means that the wait ends before the year 10000; and what is listed follows time as long
as that holds of all pending tasks and those due can be read. -/
theorem due_follows_time_iff (hnow : now.Ordinary) :
    (∀ (reading t : Instant) (delay : Nat) (unit : WaitUnit), reading.Ordinary →
      reading.addSeconds? (delay * unit.seconds : Nat) = some t →
        ((t.microsText ≤ now.microsText ↔ t.toMicros.le now.toMicros = true) ↔ t.AgreesWith now)) ∧
    (now.IsPlain → ∀ t : Instant, t.AgreesWith now ↔ t.year ≤ 9999) ∧
    ∀ (q : List QueuedTask) (db : Database), (∀ e ∈ q, e.IsProper) → (q.map (·.id)).Nodup → db.tasks = q.map row →
      ((db.dueTasks now).map (·.map fun t => (t.id, t.executeAt)) =
          .ok ((due now q).map fun e => (e.id, e.task.executeAt.toMicros)) ↔
        ∀ e ∈ q, e.status = .pending → e.task.executeAt.AgreesWith now ∧
          (e.task.executeAt.toMicros.le now.toMicros = true → e.IsLegible)) := by
  refine ⟨fun reading t delay unit hreading ht => ?_, fun hplain t => agreesWith_iff hplain,
    fun q db hq hids hdb => ?_⟩
  · exact microsText_le_iff (ordinary_of_addSeconds? hreading ht).nanos hnow.nanos
  · exact dueTasks_iff hnow hq hids hdb

def morning : Instant := ⟨1717408800, 0⟩

theorem morning_isPlain : morning.IsPlain := by decide

theorem morning_ordinary : morning.Ordinary := ⟨by decide, by decide, by decide⟩

def waiting (id days : Nat) : QueuedTask :=
  ⟨id, morning, ⟨default, 1, default, default, "next", ⟨morning.seconds + days * 86400, 0⟩, .obj []⟩, .pending, none⟩

theorem addSeconds?_morning {days : Nat} (h : days ≤ 3000000) :
    morning.addSeconds? (days * WaitUnit.days.seconds : Nat) = some ⟨morning.seconds + days * 86400, 0⟩ := by
  have hmin : minSeconds ≤ morning.seconds := by decide
  have hmax : morning.seconds + 3000000 * 86400 ≤ maxSeconds := by decide
  rw [addSeconds?, if_pos (by simp [morning]), inRange?]
  simp only [WaitUnit.seconds, Nat.cast_mul, Nat.cast_ofNat]
  exact if_pos ⟨by omega, by omega⟩

theorem waiting_proper (id : Nat) {days : Nat} (h : days ≤ 3000000) : (waiting id days).IsProper where
  storedAt := morning_ordinary
  executeAt := ordinary_of_addSeconds? morning_ordinary (addSeconds?_morning h)
  context := ⟨.nil, trivial⟩

def storing (q : List QueuedTask) : Database := { Database.empty with tasks := q.map row }

theorem storing_proper {a b m n : Nat} (hm : m ≤ 3000000) (hn : n ≤ 3000000) :
    ∀ e ∈ [waiting a m, waiting b n], e.IsProper := by
  simp [waiting_proper, hm, hn]

theorem waiting_legible {id days : Nat} (h : (waiting id days).task.executeAt.IsPlain) :
    (waiting id days).IsLegible where
  storedAt := morning_isPlain
  executeAt := h
  depth := Nat.le_of_ble_eq_true rfl
  numbers := by simp [waiting, Json.numbers, Json.membersNumbers]

theorem due_follows_time_of_two : morning.Ordinary ∧
    ((storing [waiting 1 0, waiting 2 7]).dueTasks morning).map (·.map fun t => (t.id, t.executeAt)) =
      .ok [(1, morning)] := by
  refine ⟨morning_ordinary, ?_⟩
  have hiff := (due_follows_time_iff morning_ordinary).2.2 _ (storing [waiting 1 0, waiting 2 7])
    (@storing_proper 1 2 0 7 (by simp) (by simp)) (by simp [waiting]) rfl
  have hdue : (due morning [waiting 1 0, waiting 2 7]).map (fun e => (e.id, e.task.executeAt.toMicros)) =
      [(1, morning)] := by
    have hfilter : ([waiting 1 0, waiting 2 7].filter fun e =>
        e.status == .pending && e.task.executeAt.toMicros.le morning.toMicros) = [waiting 1 0] := by rfl
    rw [due, hfilter, List.mergeSort_singleton]
    rfl
  have hlegible : ∀ e ∈ [waiting 1 0, waiting 2 7], e.IsLegible := by
    have hfirst : (waiting 1 0).task.executeAt.IsPlain := by decide
    have hsecond : (waiting 2 7).task.executeAt.IsPlain := by decide
    simp [waiting_legible, hfirst, hsecond]
  rw [← hdue]
  refine hiff.mpr fun e he _ => ⟨?_, fun _ => hlegible e he⟩
  exact (agreesWith_iff morning_isPlain).mpr (hlegible e he).executeAt.2

/-- A wait of three million days is over at once by its text, and its year keeps another task from being listed. -/
theorem due_of_far_future : morning.addSeconds? (3000000 * WaitUnit.days.seconds : Nat) =
      some (waiting 2 3000000).task.executeAt ∧
    (waiting 2 3000000).task.executeAt.microsText ≤ morning.microsText ∧
    (waiting 2 3000000).task.executeAt.toMicros.le morning.toMicros = false ∧
    waiting 1 0 ∈ due morning [waiting 1 0, waiting 2 3000000] ∧
    ∀ ts, (storing [waiting 1 0, waiting 2 3000000]).dueTasks morning ≠ .ok ts := by
  have htext : (waiting 2 3000000).task.executeAt.microsText ≤ morning.microsText := by decide
  have hyear : ¬ (waiting 2 3000000).task.executeAt.IsPlain := by decide
  refine ⟨addSeconds?_morning (by simp), htext, by decide, mem_due.mpr ⟨by simp, rfl, by decide⟩, ?_⟩
  intro ts hts
  have hlegible := ((dueTasks_eq_ok rfl (@storing_proper 1 2 0 3000000 (by simp) (by simp))).mp hts).1
  exact hyear (hlegible _ (mem_textDue.mpr ⟨by simp, rfl, htext⟩)).executeAt

end QueuedTask
end Outreach
