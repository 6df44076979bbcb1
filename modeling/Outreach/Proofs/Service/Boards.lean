import Outreach.CommandLine.Run
import Outreach.Proofs.Database.Boards
import Outreach.Proofs.Engine.Program
import Outreach.Proofs.Service.Answers

/-! Files of boards that are taken in, one order after the other. Whatever a file holds becomes its user's, also what was
another's until then: a user keeps just those boards that no order for anybody else names. -/
namespace Outreach
open CommandLine Decode Json Fields

structure BoardOrder where
  files : Files
  json : Bool
  file : String
  user : Uuid

namespace BoardOrder

def invocation (o : BoardOrder) : Invocation := ⟨o.json, .importBoards o.file o.user⟩

def boards? (o : BoardOrder) : Option (List BoardFile) :=
  match o.files.read o.file with
  | .ok text => boardsOf text
  | .error _ => none

def taken (o : BoardOrder) : List BoardFile := o.boards?.getD []

def ids (o : BoardOrder) : List String := o.taken.map (·.id)

end BoardOrder

def Board.file (b : Board) : BoardFile := ⟨b.id, b.name, b.stages⟩

def Instant.IsDated (t : Instant) : Prop := t.Ordinary ∧ t.IsPlain

theorem Instant.year_le_of_seconds {t u : Instant} (h : t.seconds ≤ u.seconds) : t.year ≤ u.year := by
  obtain hlt | heq := h.lt_or_eq
  · exact year_le_of_earlier (.inl hlt)
  · exact le_of_eq (by rw [year, date, heq]; rfl)

namespace Database
variable {user v : Uuid} {taken : List BoardFile} {saves : List Board} {db db' : Database}

/-- What becomes of everybody's boards when those of a file are taken in for a user. -/
structure Takes (user : Uuid) (taken : List BoardFile) (db db' : Database) : Prop where
  rest : db' = { db with boards := db'.boards }
  others : ∀ v ≠ user, ∀ boards, db.listBoards v = .ok boards →
    db'.listBoards v = .ok (boards.filter fun b => decide (b.id ∉ taken.map (·.id)))
  listing_iff : ∀ v ≠ user, ∀ boards, db.listBoards v = .ok boards →
    (db'.listBoards v = db.listBoards v ↔ ∀ b ∈ boards, b.id ∉ taken.map (·.id))
  stages_iff : ∀ v ≠ user, ∀ boards, db.listBoards v = .ok boards →
    (db'.allStages v = db.allStages v ↔ ∀ b ∈ boards, b.id ∈ taken.map (·.id) → b.stages = [])
  /-- Nothing at all changes for those who own nothing that the file names, whether or not their boards can be read. -/
  apart : ∀ v ≠ user, (∀ r ∈ db.boards, r.userId = v.text → r.id ∉ taken.map (·.id)) →
    db'.listBoards v = db.listBoards v ∧ db'.allStages v = db.allStages v
  own : ∀ boards, db'.listBoards user = .ok boards →
    (∀ id last, (taken.filter (·.id == id)).getLast? = some last →
      (∃ b ∈ boards, b.id = id) ∧ ∀ b ∈ boards, b.id = id → b.file = last) ∧
    ∀ before, db.listBoards user = .ok before →
      (boards.filter fun b => decide (b.id ∉ taken.map (·.id))) = before.filter fun b => decide (b.id ∉ taken.map (·.id))

theorem userId_aged {b : Board} (age : String) (hv : v ≠ b.userId) : ((BoardRow.aged b age).userId == v.text) = false := by
  simpa [BoardRow.aged, BoardRow.ofBoard] using fun h => hv (Uuid.text_inj.mp h).symm

theorem rows_of_others (howned : ∀ b ∈ saves, b.userId = user) (hv : v ≠ user) :
    (db.saveBoards saves).boards.filter (·.userId == v.text) =
      db.boards.filter fun r => r.userId == v.text && decide (r.id ∉ saves.map (·.id)) :=
  filter_saveBoards fun b hb age => userId_aged age (howned b hb ▸ hv)

/-- What is not saved stays in its rows, in their order. -/
theorem rows_not_saved (saves : List Board) (db : Database) :
    (db.saveBoards saves).boards.filter (fun r => decide (r.id ∉ saves.map (·.id))) =
      db.boards.filter fun r => decide (r.id ∉ saves.map (·.id)) := by
  have hrows : (db.saveBoards saves).boards.filter (fun r => decide (r.id ∉ saves.map (·.id))) =
      db.boards.filter fun r => decide (r.id ∉ saves.map (·.id)) && decide (r.id ∉ saves.map (·.id)) :=
    filter_saveBoards fun b hb age => decide_eq_false (not_not.mpr (List.mem_map_of_mem hb))
  simpa only [Bool.and_self] using hrows

theorem getLast?_files (hfiles : saves.map Board.file = taken) {id : String} {last : BoardFile}
    (h : (taken.filter (·.id == id)).getLast? = some last) :
    ∃ b, (saves.filter (·.id == id)).getLast? = some b ∧ b.file = last := by
  rw [← hfiles, List.filter_map, List.getLast?_map, Option.map_eq_some_iff] at h
  exact h

theorem flatMap_filter_eq_iff {α β : Type} {p : α → Bool} {f : α → List β} {l : List α} :
    (l.filter p).flatMap f = l.flatMap f ↔ ∀ a ∈ l, p a = false → f a = [] := by
  induction l with
  | nil => simp
  | cons a l ih =>
    cases hp : p a with
    | true => simp [hp, ih]
    | false =>
      rw [List.filter_cons_of_neg (by simp [hp]), List.flatMap_cons, List.forall_mem_cons, ← ih]
      have hle := (List.Sublist.flatMap (List.filter_sublist (p := p) (l := l)) f).length_le
      constructor
      · intro h
        have hlength := congrArg List.length h
        rw [List.length_append] at hlength
        have hnone : f a = [] := List.eq_nil_of_length_eq_zero (by omega)
        exact ⟨fun _ => hnone, by rwa [hnone] at h⟩
      · rintro ⟨ha, hl⟩
        rw [ha hp, hl, List.nil_append]

theorem saveBoards_takes (hfiles : saves.map Board.file = taken) (howned : ∀ b ∈ saves, b.userId = user) :
    Takes user taken db (db.saveBoards saves) := by
  have hids : taken.map (·.id) = saves.map (·.id) := by rw [← hfiles, List.map_map]; rfl
  -- For the other users saving boards comes down to taking the rows of these ids away from their lists.
  have hothers : ∀ v ≠ user, ∀ boards, db.listBoards v = .ok boards →
      (db.saveBoards saves).listBoards v = .ok (boards.filter fun b => decide (b.id ∉ taken.map (·.id))) :=
    fun v hv boards h => hids ▸ listBoards_without (rows_of_others howned hv) h
  refine ⟨saveBoards_eq saves db, hothers, fun v hv boards h => ?_, fun v hv boards h => ?_, fun v hv hnone => ?_,
    fun boards h => ⟨fun id last hlast => ?_, fun before hbefore => ?_⟩⟩
  · rw [hothers v hv boards h, h, Except.ok.injEq, List.filter_eq_self]
    simp only [decide_eq_true_eq]
  · rw [allStages_of_listBoards (hothers v hv boards h), allStages_of_listBoards h, Except.ok.injEq, flatMap_filter_eq_iff]
    simp only [decide_eq_false_iff_not, not_not]
  · have hrows : (db.saveBoards saves).boards.filter (·.userId == v.text) = db.boards.filter (·.userId == v.text) := by
      rw [rows_of_others howned hv]
      refine List.filter_congr fun r hr => ?_
      by_cases huser : r.userId = v.text
      · rw [decide_eq_true (hids ▸ hnone r hr huser), Bool.and_true]
      · rw [beq_false_of_ne huser, Bool.false_and]
    have hlist : (db.saveBoards saves).listBoards v = db.listBoards v := by rw [listBoards, hrows, listBoards]
    exact ⟨hlist, by rw [allStages, allStages, hlist]⟩
  · obtain ⟨saved, hsaved, rfl⟩ := getLast?_files hfiles hlast
    have howner : saved.userId = user :=
      howned saved (List.mem_of_mem_filter (List.mem_of_getLast? hsaved))
    obtain ⟨⟨r, hr, hid⟩, hall⟩ := saved_saveBoards db hsaved
    have hfile (r : BoardRow) (hr : r ∈ (db.saveBoards saves).boards) (hid : r.id = id) (b : Board)
        (hread : r.read = .ok b) : b.file = saved.file := by
      obtain ⟨age, rfl⟩ := hall r hr hid
      rw [BoardRow.read_aged] at hread
      obtain ⟨t, -, rfl⟩ := map_eq_ok.mp hread
      rfl
    constructor
    · obtain ⟨age, rfl⟩ := hall r hr hid
      obtain ⟨b, hb, hread⟩ := exists_of_mapM h _ (mem_listed.mpr ⟨hr, congrArg Uuid.text howner⟩)
      exact ⟨b, hb, (BoardRow.id_of_read hread).trans hid⟩
    · intro b hb hbid
      obtain ⟨r', hr', hread⟩ := mem_of_mapM h b hb
      exact hfile r' (mem_listed.mp hr').1 ((BoardRow.id_of_read hread).symm.trans hbid) b hread
  · have hafter := filter_listBoards (saves.map (·.id)) h
    rw [List.filter_comm, rows_not_saved, List.filter_comm, filter_listBoards _ hbefore, Except.ok.injEq] at hafter
    rw [hids]
    exact hafter.symm

/-- The user's boards can be listed as long as the other rows of the user can be read, and the ages of the boards that
the file takes the place of. -/
theorem listBoards_saved_isOk (howned : ∀ b ∈ saves, b.userId = user) (hdates : ∀ b ∈ saves, b.createdAt.IsDated) :
    (∃ boards, (db.saveBoards saves).listBoards user = .ok boards) ↔
      (∀ r ∈ db.boards, r.userId = user.text → r.id ∉ saves.map (·.id) → ∃ b, r.read = .ok b) ∧
        ∀ r ∈ db.boards, r.id ∈ saves.map (·.id) → ∃ t, Stored.instant r.createdAt = .ok t := by
  have hkept {r : BoardRow} (hid : r.id ∉ saves.map (·.id)) : r ∈ (db.saveBoards saves).boards ↔ r ∈ db.boards := by
    have hmem := congrArg (r ∈ ·) (rows_not_saved saves db)
    simpa only [List.mem_filter, decide_eq_true hid, and_true, eq_iff_iff] using hmem
  have hsaved {r : BoardRow} (hr : r ∈ (db.saveBoards saves).boards) (hid : r.id ∈ saves.map (·.id)) :
      r.userId = user.text ∧ ((∃ b, r.read = .ok b) ↔ ∃ t, Stored.instant r.createdAt = .ok t) := by
    obtain ⟨last, hlast⟩ : ∃ last, (saves.filter (·.id == r.id)).getLast? = some last := by
      obtain ⟨b, hb, hbid⟩ := List.mem_map.mp hid
      have hmem : b ∈ saves.filter (·.id == r.id) := List.mem_filter.mpr ⟨hb, beq_iff_eq.mpr hbid⟩
      exact ⟨_, List.getLast?_eq_some_getLast (List.ne_nil_of_mem hmem)⟩
    obtain ⟨age, hrow⟩ := (saved_saveBoards db hlast).2 r hr rfl
    have howner := howned last (List.mem_of_mem_filter (List.mem_of_getLast? hlast))
    rw [hrow]
    refine ⟨congrArg Uuid.text howner, ?_⟩
    rw [BoardRow.read_aged]
    simp only [map_eq_ok, BoardRow.aged]
    constructor
    · rintro ⟨b, t, ht, -⟩
      exact ⟨t, ht⟩
    · rintro ⟨t, ht⟩
      exact ⟨_, t, ht, rfl⟩
  rw [listBoards_isOk]
  constructor
  · refine fun h => ⟨fun r hr huser hid => h r ((hkept hid).mpr hr) huser, fun old hold hid => ?_⟩
    obtain ⟨r, hr, hrid, hage⟩ := keeps_age saves hold
    obtain ⟨huser, hread⟩ := hsaved hr (hrid ▸ hid)
    exact hage ▸ hread.mp (h r hr huser)
  · rintro ⟨hothers, hages⟩ r hr huser
    by_cases hid : r.id ∈ saves.map (·.id)
    · refine (hsaved hr hid).2.mpr ?_
      obtain ⟨old, hold, hsame, hage⟩ | ⟨-, b, hb, -, hage⟩ := age_of_saveBoards hr
      · exact hage ▸ hages old hold (hsame ▸ hid)
      · obtain ⟨hordinary, hplain⟩ := hdates b hb
        exact hage ▸ ⟨_, (QueuedTask.instant_microsText hordinary).trans (if_pos hplain)⟩
    · exact hothers r ((hkept hid).mp hr) huser hid

end Database

namespace Service
variable {around : Surroundings} {user v : Uuid} {s : Service} {o : BoardOrder} {boards : List Board}

def dated (user : Uuid) (b : BoardFile) (s : Service) : Board := ⟨b.id, user, b.name, b.stages, s.tick.1⟩

def saving (user : Uuid) (b : BoardFile) (s : Service) : Service :=
  { s.tick.2 with db := s.tick.2.db.saveBoard (dated user b s) }

theorem db_saving (b : BoardFile) : (saving user b s).db = s.db.saveBoard (dated user b s) := by simp only [saving, tick]

theorem forwarded_saving (b : BoardFile) : (saving user b s).forwarded = s.forwarded := by simp only [saving, tick]

def takeIn (user : Uuid) : List BoardFile → Service → List Board × Service
  | [], s => ([], s)
  | b :: rest, s =>
    let after := takeIn user rest (saving user b s)
    (dated user b s :: after.1, after.2)

theorem takeIn_cons (user : Uuid) (b : BoardFile) (rest : List BoardFile) (s : Service) :
    takeIn user (b :: rest) s =
      (dated user b s :: (takeIn user rest (saving user b s)).1, (takeIn user rest (saving user b s)).2) := rfl

theorem takeIn_files (user : Uuid) (taken : List BoardFile) (s : Service) :
    (takeIn user taken s).1.map Board.file = taken := by
  induction taken generalizing s with
  | nil => rfl
  | cons b rest ih => exact congrArg (b :: ·) (ih _)

theorem takeIn_owned (user : Uuid) (taken : List BoardFile) (s : Service) :
    ∀ b ∈ (takeIn user taken s).1, b.userId = user := by
  induction taken generalizing s with
  | nil => exact List.forall_mem_nil _
  | cons b rest ih => exact List.forall_mem_cons.mpr ⟨rfl, ih _⟩

theorem takeIn_db (user : Uuid) (taken : List BoardFile) (s : Service) :
    (takeIn user taken s).2.db = s.db.saveBoards (takeIn user taken s).1 ∧
      (takeIn user taken s).2.forwarded = s.forwarded := by
  induction taken generalizing s with
  | nil => exact ⟨rfl, rfl⟩
  | cons b rest ih =>
    obtain ⟨hdb, hforwarded⟩ := ih (saving user b s)
    rw [db_saving] at hdb
    rw [takeIn_cons]
    exact ⟨hdb, hforwarded.trans (forwarded_saving b)⟩

theorem clock_tick (h : s.clock.nanos < 1000000000) :
    s.tick.2.clock.nanos < 1000000000 ∧ s.tick.1.nanos < 1000000000 ∧ s.clock.seconds ≤ s.tick.1.seconds ∧
      s.tick.1.seconds ≤ s.tick.2.clock.seconds := by
  obtain ⟨bound, hbound⟩ : ∃ bound, bound = 1000000000 := ⟨_, rfl⟩
  simp only [tick, ← hbound] at h ⊢
  split <;> simp only <;> omega

/-- The boards are saved between the time before and the time after. -/
theorem takeIn_times (user : Uuid) (taken : List BoardFile) (h : s.clock.nanos < 1000000000) :
    (takeIn user taken s).2.clock.nanos < 1000000000 ∧ s.clock.seconds ≤ (takeIn user taken s).2.clock.seconds ∧
      ∀ b ∈ (takeIn user taken s).1, b.createdAt.nanos < 1000000000 ∧ s.clock.seconds ≤ b.createdAt.seconds ∧
        b.createdAt.seconds ≤ (takeIn user taken s).2.clock.seconds := by
  induction taken generalizing s with
  | nil => exact ⟨h, le_rfl, List.forall_mem_nil _⟩
  | cons b rest ih =>
    obtain ⟨hnanos, hn, hfrom, hto⟩ := clock_tick h
    obtain ⟨hend, hle, htimes⟩ := ih (s := saving user b s) hnanos
    rw [takeIn_cons]
    refine ⟨hend, (hfrom.trans hto).trans hle, List.forall_mem_cons.mpr ⟨⟨hn, hfrom, hto.trans hle⟩, fun b' hb' => ?_⟩⟩
    obtain ⟨hn', hfrom', hto'⟩ := htimes b' hb'
    exact ⟨hn', (hfrom.trans hto).trans hfrom', hto'⟩

theorem takeIn_dated (taken : List BoardFile) (h : s.clock.IsDated) (hend : (takeIn user taken s).2.clock.IsDated) :
    ∀ b ∈ (takeIn user taken s).1, b.createdAt.IsDated := by
  obtain ⟨⟨hnanos, hmin, -⟩, hyear, -⟩ := h
  obtain ⟨⟨-, -, hmax⟩, -, hyear'⟩ := hend
  obtain ⟨-, -, htimes⟩ := takeIn_times user taken hnanos
  intro b hb
  obtain ⟨hn, hfrom, hto⟩ := htimes b hb
  exact ⟨⟨hn, hmin.trans hfrom, hto.trans hmax⟩, hyear.trans (Instant.year_le_of_seconds hfrom),
    (Instant.year_le_of_seconds hto).trans hyear'⟩

theorem run_saveBoards (user : Uuid) (saved : List Board) (taken : List BoardFile) (s : Service) :
    (saveBoards user saved taken).run.run (answer around) s =
      some (.ok (saved ++ (takeIn user taken s).1), (takeIn user taken s).2) := by
  induction taken generalizing saved s with
  | nil => rw [takeIn, List.append_nil]; rfl
  | cons b rest ih =>
    refine (ih (saved ++ [dated user b s]) (saving user b s)).trans ?_
    rw [List.append_assoc, takeIn_cons, List.singleton_append]

theorem perform_of_quiet {α : Type} {p : Program α} {a : α} {s' : Service} (hlimit : 0 < around.limit)
    (hrun : p.run (answer around) s = some (a, s')) (hquiet : s'.forwarded = []) : s.perform around p = some (a, s') := by
  obtain ⟨rounds, hrounds⟩ := Nat.exists_eq_add_one_of_ne_zero hlimit.ne'
  have hsettle : settle around.settings around.limit (answer around) backlog around.limit s' = some s' := by
    rw [hrounds, settle]
    simp only [backlog, hquiet]
  simp only [perform, Program.runSettled, hrun, Option.bind_eq_bind, Option.bind_some, hsettle]
  rfl

theorem run_print_boards (around : Surroundings) (o : BoardOrder) (s : Service) :
    ∃ printed, (print o.files around.settings around.limit (.importBoards o.file o.user)).run.run (answer around) s =
      some (printed, (takeIn o.user o.taken s).2) ∧ printed.isOk = o.boards?.isSome := by
  obtain ⟨next, hprint, hboards, hnone⟩ : ∃ next : String → CommandLine.Attempt (Option Printed),
      print o.files around.settings around.limit (.importBoards o.file o.user) = readFile o.files o.file >>= next ∧
        (∀ text bs, boardsOf text = some bs → next text = do return some (printBoards (← saveBoards o.user [] bs))) ∧
        ∀ text, boardsOf text = none → next text = throw .boardFile := by
    refine ⟨_, rfl, fun text bs h => ?_, fun text h => ?_⟩ <;> simp only [h]
  rw [hprint]
  cases hread : o.files.read o.file with
  | error reason =>
    simp only [BoardOrder.taken, BoardOrder.boards?, hread, readFile]
    exact ⟨_, rfl, rfl⟩
  | ok text =>
    have htext : (readFile o.files o.file).run.run (answer around) s = some (.ok text, s) := by
      simp only [readFile, hread]
      rfl
    simp only [BoardOrder.taken, BoardOrder.boards?, hread, Attempt.run_bind_of_ok htext]
    cases hbs : boardsOf text with
    | none =>
      rw [hnone text hbs]
      exact ⟨_, rfl, rfl⟩
    | some bs =>
      rw [hboards text bs hbs, Attempt.run_bind_of_ok (run_saveBoards o.user [] bs s)]
      exact ⟨_, rfl, rfl⟩

/-- An order to take boards in is carried out whatever is stored, unless the file is refused. -/
theorem obey_boards (hlimit : 0 < around.limit) (hquiet : s.forwarded = []) (o : BoardOrder) :
    ∃ result, s.obey around o.files o.invocation = some (result, (takeIn o.user o.taken s).2) ∧
      result.isOk = o.boards?.isSome := by
  have hafter : (takeIn o.user o.taken s).2.forwarded = [] := (takeIn_db _ _ _).2.trans hquiet
  obtain ⟨printed, hprint, hok⟩ := run_print_boards around o s
  obtain ⟨next, hcarry, hnext⟩ : ∃ next : Option Printed → CommandLine.Attempt Output,
      carryOut o.files around.settings around.limit o.invocation =
        print o.files around.settings around.limit (.importBoards o.file o.user) >>= next ∧
      ∀ p, ∃ outcome, next p = pure outcome :=
    ⟨_, rfl, fun p => by cases p <;> exact ⟨_, rfl⟩⟩
  suffices hrun : ∃ result, (carryOut o.files around.settings around.limit o.invocation).run.run (answer around) s =
      some (result, (takeIn o.user o.taken s).2) ∧ result.isOk = printed.isOk by
    obtain ⟨result, hrun, hsame⟩ := hrun
    exact ⟨result, perform_of_quiet hlimit hrun hafter, hsame.trans hok⟩
  rw [hcarry, Attempt.run_bind, hprint]
  cases printed with
  | error e => exact ⟨_, rfl, rfl⟩
  | ok p =>
    obtain ⟨outcome, houtcome⟩ := hnext p
    simp only [Option.bind_some, ExceptT.bindCont, houtcome]
    exact ⟨_, rfl, rfl⟩

theorem takeIn_takes (o : BoardOrder) (s : Service) :
    Database.Takes o.user o.taken s.db (takeIn o.user o.taken s).2.db := by
  rw [(takeIn_db o.user o.taken s).1]
  exact Database.saveBoards_takes (takeIn_files _ _ _) (takeIn_owned _ _ _)

def obeys (around : Surroundings) : List BoardOrder → Service → Option Service
  | [], s => some s
  | o :: rest, s => (s.obey around o.files o.invocation).bind fun x => obeys around rest x.2

theorem exists_obeys (hlimit : 0 < around.limit) (hquiet : s.forwarded = []) (orders : List BoardOrder) :
    ∃ s', s.obeys around orders = some s' ∧ s'.forwarded = [] ∧
      ((∀ o ∈ orders, o.user ≠ v) → ∀ boards, s.db.listBoards v = .ok boards →
        s'.db.listBoards v = .ok (boards.filter fun b => decide (b.id ∉ orders.flatMap BoardOrder.ids))) := by
  induction orders generalizing s with
  | nil => exact ⟨s, rfl, hquiet, fun _ boards h => by simpa using h⟩
  | cons o rest ih =>
    obtain ⟨result, hobey, -⟩ := obey_boards hlimit hquiet o
    have hafter : (takeIn o.user o.taken s).2.forwarded = [] := (takeIn_db _ _ _).2.trans hquiet
    obtain ⟨s', hrest, hquiet', hothers⟩ := ih hafter
    refine ⟨s', by rw [obeys, hobey]; exact hrest, hquiet', fun hv boards h => ?_⟩
    obtain ⟨ho, hv⟩ := List.forall_mem_cons.mp hv
    have hfirst := (takeIn_takes o s).others v ho.symm boards h
    rw [hothers hv _ hfirst, List.filter_filter]
    refine congrArg Except.ok (List.filter_congr fun b _ => ?_)
    simp only [List.flatMap_cons, List.mem_append, not_or, Bool.decide_and, Bool.and_comm]
    rfl

/-- Boards are taken in, one order after the other. Each order gives its user every board of its file as it stands there
last, and leaves everybody else with just those boards that the file does not name; and so after all of them, whoever has
given no order is left with what none of them names. -/
theorem import_boards (hlimit : 0 < around.limit) (hquiet : s.forwarded = []) (earlier : List BoardOrder)
    (o : BoardOrder) : ∃ s₁ result s₂, s.obeys around earlier = some s₁ ∧
      s₁.obey around o.files o.invocation = some (result, s₂) ∧ result.isOk = o.boards?.isSome ∧
      Database.Takes o.user o.taken s₁.db s₂.db ∧
      (s₁.clock.IsDated → s₂.clock.IsDated → ((∃ boards, s₂.db.listBoards o.user = .ok boards) ↔
        (∀ r ∈ s₁.db.boards, r.userId = o.user.text → r.id ∉ o.ids → ∃ b, r.read = .ok b) ∧
          ∀ r ∈ s₁.db.boards, r.id ∈ o.ids → ∃ t, Stored.instant r.createdAt = .ok t)) ∧
      ∀ v, (∀ o' ∈ earlier ++ [o], o'.user ≠ v) → ∀ boards, s.db.listBoards v = .ok boards →
        s₂.db.listBoards v = .ok (boards.filter fun b => decide (b.id ∉ (earlier ++ [o]).flatMap BoardOrder.ids)) := by
  obtain ⟨s₁, hearlier, hquiet₁, -⟩ := exists_obeys (v := o.user) hlimit hquiet earlier
  obtain ⟨result, hobey, hok⟩ := obey_boards hlimit hquiet₁ o
  refine ⟨s₁, result, _, hearlier, hobey, hok, takeIn_takes o s₁, fun hdated hend => ?_, fun v hv boards h => ?_⟩
  · have hids : o.ids = (takeIn o.user o.taken s₁).1.map (·.id) := by
      rw [BoardOrder.ids, ← takeIn_files o.user o.taken s₁, List.map_map, takeIn_files]
      rfl
    rw [(takeIn_db o.user o.taken s₁).1, hids]
    exact Database.listBoards_saved_isOk (takeIn_owned _ _ _) (takeIn_dated o.taken hdated hend)
  · obtain ⟨s', hsame, -, hothers⟩ := exists_obeys (v := v) hlimit hquiet earlier
    cases hearlier.symm.trans hsame
    have hfirst := hothers (fun o' ho' => hv o' (List.mem_append_left _ ho')) boards h
    have hlast := (takeIn_takes o s₁).others v (hv o (List.mem_append_right _ List.mem_cons_self)).symm _ hfirst
    rw [hlast, List.filter_filter]
    refine congrArg Except.ok (List.filter_congr fun b _ => ?_)
    simp only [List.flatMap_append, List.flatMap_cons, List.flatMap_nil, List.append_nil, List.mem_append, not_or,
      Bool.decide_and, Bool.and_comm]
    rfl

def pipeline : Board := ⟨"pipeline", .numbered 2, "Pipeline", [⟨"lead", "Lead", []⟩], ⟨1717408800, 0⟩⟩

def piped : Service := .new { Database.empty with boards := [.ofBoard pipeline] } ⟨1717416000, 0⟩ 0

def salesOrder : BoardOrder :=
  ⟨⟨fun _ => .ok "\x7b\"id\":\"sales\",\"name\":\"Sales\"\x7d", fun _ => none⟩, false, "sales.json", .numbered 1⟩

def pipelineOrder : BoardOrder :=
  ⟨⟨fun _ => .ok "\x7b\"id\":\"pipeline\",\"name\":\"Sales\"\x7d", fun _ => none⟩, false, "pipeline.json", .numbered 1⟩

theorem listBoards_piped : piped.db.listBoards (.numbered 2) = .ok [pipeline] := by
  have hread : (BoardRow.ofBoard pipeline).read = .ok pipeline := by
    refine (BoardRow.read_aged pipeline pipeline.createdAt.microsText).trans ?_
    rw [QueuedTask.instant_microsText ⟨by decide, by decide, by decide⟩, if_pos (by decide)]
    rfl
  have hrows : piped.db.boards.filter (·.userId == (Uuid.numbered 2).text) = [.ofBoard pipeline] := by
    simp [piped, Service.new, BoardRow.ofBoard, pipeline]
  rw [Database.listBoards, hrows, Database.byAge, List.mergeSort_singleton]
  exact mapM_eq_ok.mpr (.cons hread .nil)

/-- The second user keeps a pipeline that the order does not name. -/
theorem import_boards_sales : ∃ result s₂, piped.obey .offline salesOrder.files salesOrder.invocation = some (result, s₂) ∧
    s₂.db.listBoards (.numbered 2) = .ok [pipeline] := by
  have hids : salesOrder.ids = ["sales"] := by decide +kernel
  obtain ⟨s₁, result, s₂, hsame, hobey, -, -, -, hothers⟩ :=
    import_boards (by decide : 0 < Surroundings.offline.limit) (rfl : piped.forwarded = []) [] salesOrder
  cases hsame
  refine ⟨result, s₂, hobey, ?_⟩
  rw [hothers (.numbered 2) (by decide) [pipeline] listBoards_piped, List.nil_append, List.flatMap_singleton, hids]
  rfl

/-- What one user takes in is taken from another. -/
theorem board_taken_away : pipelineOrder.user ≠ .numbered 2 ∧ piped.db.listBoards (.numbered 2) = .ok [pipeline] ∧
    piped.db.allStages (.numbered 2) = .ok pipeline.stages ∧
    ∃ result s₂, piped.obey .offline pipelineOrder.files pipelineOrder.invocation = some (result, s₂) ∧
      s₂.db.listBoards (.numbered 2) = .ok [] ∧ s₂.db.allStages (.numbered 2) = .ok [] := by
  have hids : pipelineOrder.ids = ["pipeline"] := by decide +kernel
  have huser : pipelineOrder.user ≠ .numbered 2 := by decide
  obtain ⟨result, hobey, -⟩ := obey_boards (by decide : 0 < Surroundings.offline.limit) (rfl : piped.forwarded = []) pipelineOrder
  have hlost := (takeIn_takes pipelineOrder piped).others (.numbered 2) huser.symm [pipeline] listBoards_piped
  rw [show pipelineOrder.taken.map (·.id) = ["pipeline"] from hids] at hlost
  exact ⟨huser, listBoards_piped, Database.allStages_of_listBoards listBoards_piped, result, _, hobey, hlost,
    Database.allStages_of_listBoards hlost⟩

end Service
end Outreach
