import Outreach.Engine.Conditions
import Outreach.Proofs.Engine.Exchange
import Outreach.Proofs.Engine.Run

/-! Groups of conditions. The contact is read anew for each test and may be another one each time, or none, so a condition
is judged by what its own read shows; the first one that decides the group, or the first read that shows no contact, is
the last that counts. -/
namespace Outreach

def Logic.undecided : Logic → Bool
  | .and => true
  | .or => false

abbrev Reading := Except RepositoryError (Option Contact)

inductive Reading.Misses (contactId : Int) : Reading → ConditionError → Prop where
  | fault (e : RepositoryError) : Misses contactId (.error e) (.repository e)
  | nobody : Misses contactId (.ok none) (.contactMissing contactId)

def readings (contactId : Int) (reads : Nat → Reading) (n : Nat) : List Exchange :=
  (List.range n).map fun i => ⟨.getContact contactId, reads i⟩

theorem readings_zero (contactId : Int) (reads : Nat → Reading) : readings contactId reads 0 = [] := rfl

theorem readings_succ (contactId : Int) (reads : Nat → Reading) (n : Nat) : readings contactId reads (n + 1) =
    ⟨.getContact contactId, reads 0⟩ :: readings contactId (fun i => reads (i + 1)) n := by
  rw [readings, List.range_succ_eq_map, List.map_cons, List.map_map]
  rfl

section
variable (contactId : Int) (logic : Logic) (now : WallClock) (reads : Nat → Reading) (conditions : List Condition)

def ComesOut (i : Nat) (b : Bool) : Prop :=
  ∃ condition contact, conditions[i]? = some condition ∧ reads i = .ok (some contact) ∧ condition.check contact now = b

def LeaveOpen (n : Nat) : Prop := ∀ i < n, ComesOut now reads conditions i logic.undecided

/-- How often the contact is read for a group, and what the group comes to: the first condition that comes out against the
rest decides it, without one it is undecided, and a read for a condition before that may miss the contact. -/
inductive Judged : Nat → Except ConditionError Bool → Prop where
  | decided {i : Nat} (before : LeaveOpen logic now reads conditions i)
    (here : ComesOut now reads conditions i (!logic.undecided)) : Judged (i + 1) (.ok !logic.undecided)
  | undecided (before : LeaveOpen logic now reads conditions conditions.length) :
    Judged conditions.length (.ok logic.undecided)
  | missed {i : Nat} {e : ConditionError} (before : LeaveOpen logic now reads conditions i) (more : i < conditions.length)
    (here : (reads i).Misses contactId e) : Judged (i + 1) (.error e)

end

section
variable {contactId : Int} {logic : Logic} {now : WallClock} {reads : Nat → Reading} {condition : Condition}
  {conditions : List Condition} {n : Nat} {v : Except ConditionError Bool}

theorem comesOut_zero {b : Bool} : ComesOut now reads (condition :: conditions) 0 b ↔
    ∃ contact, reads 0 = .ok (some contact) ∧ condition.check contact now = b := by
  simp [ComesOut]

theorem leaveOpen_succ : LeaveOpen logic now reads (condition :: conditions) (n + 1) ↔
    ComesOut now reads (condition :: conditions) 0 logic.undecided ∧
      LeaveOpen logic now (fun i => reads (i + 1)) conditions n :=
  Nat.forall_lt_succ_left

theorem judged_nil : Judged contactId logic now reads [] n v ↔ n = 0 ∧ v = .ok logic.undecided := by
  constructor
  · rintro (⟨-, _, _, hnone, -⟩ | - | ⟨-, hmore, -⟩)
    · cases hnone
    · exact ⟨rfl, rfl⟩
    · cases hmore
  · rintro ⟨rfl, rfl⟩
    exact .undecided fun _ h => absurd h (Nat.not_lt_zero _)

/-- The first read misses the contact, or the first condition decides, or the others are left. -/
theorem judged_cons : Judged contactId logic now reads (condition :: conditions) n v ↔
    (∃ e, (reads 0).Misses contactId e ∧ n = 1 ∧ v = .error e) ∨
      ∃ contact, reads 0 = .ok (some contact) ∧
        (condition.check contact now = !logic.undecided ∧ n = 1 ∧ v = .ok !logic.undecided ∨
          condition.check contact now = logic.undecided ∧
            ∃ m, n = m + 1 ∧ Judged contactId logic now (fun i => reads (i + 1)) conditions m v) := by
  constructor
  · intro h
    cases h with
    | @decided i before here =>
      cases i with
      | zero =>
        obtain ⟨contact, hread, hcheck⟩ := comesOut_zero.mp here
        exact .inr ⟨contact, hread, .inl ⟨hcheck, rfl, rfl⟩⟩
      | succ i =>
        obtain ⟨hfirst, hrest⟩ := leaveOpen_succ.mp before
        obtain ⟨contact, hread, hcheck⟩ := comesOut_zero.mp hfirst
        exact .inr ⟨contact, hread, .inr ⟨hcheck, _, rfl, .decided hrest here⟩⟩
    | undecided before =>
      obtain ⟨hfirst, hrest⟩ := leaveOpen_succ.mp before
      obtain ⟨contact, hread, hcheck⟩ := comesOut_zero.mp hfirst
      exact .inr ⟨contact, hread, .inr ⟨hcheck, _, rfl, .undecided hrest⟩⟩
    | @missed i e before more here =>
      cases i with
      | zero => exact .inl ⟨e, here, rfl, rfl⟩
      | succ i =>
        obtain ⟨hfirst, hrest⟩ := leaveOpen_succ.mp before
        obtain ⟨contact, hread, hcheck⟩ := comesOut_zero.mp hfirst
        exact .inr ⟨contact, hread, .inr ⟨hcheck, _, rfl, .missed hrest (Nat.lt_of_succ_lt_succ more) here⟩⟩
  · have hnone : LeaveOpen logic now reads (condition :: conditions) 0 := fun _ h => absurd h (Nat.not_lt_zero _)
    rintro (⟨e, hmisses, rfl, rfl⟩ | ⟨contact, hread, ⟨hcheck, rfl, rfl⟩ | ⟨hcheck, m, rfl, hrest⟩⟩)
    · exact .missed hnone (Nat.zero_lt_succ _) hmisses
    · exact .decided hnone (comesOut_zero.mpr ⟨contact, hread, hcheck⟩)
    · have hopen {i : Nat} (h : LeaveOpen logic now (fun i => reads (i + 1)) conditions i) :
          LeaveOpen logic now reads (condition :: conditions) (i + 1) :=
        leaveOpen_succ.mpr ⟨comesOut_zero.mpr ⟨contact, hread, hcheck⟩, h⟩
      cases hrest with
      | decided before here => exact .decided (hopen before) here
      | undecided before => exact .undecided (hopen before)
      | missed before more here => exact .missed (hopen before) (Nat.succ_lt_succ more) here

theorem exists_judged (contactId : Int) (logic : Logic) (now : WallClock) (reads : Nat → Reading)
    (conditions : List Condition) : ∃ n v, Judged contactId logic now reads conditions n v := by
  induction conditions generalizing reads with
  | nil => exact ⟨0, _, judged_nil.mpr ⟨rfl, rfl⟩⟩
  | cons condition conditions ih =>
    simp only [judged_cons]
    match hread : reads 0 with
    | .error fault => exact ⟨1, _, .inl ⟨_, .fault fault, rfl, rfl⟩⟩
    | .ok none => exact ⟨1, _, .inl ⟨_, .nobody, rfl, rfl⟩⟩
    | .ok (some contact) =>
      by_cases hcheck : condition.check contact now = logic.undecided
      · obtain ⟨m, v, hrest⟩ := ih fun i => reads (i + 1)
        exact ⟨m + 1, v, .inr ⟨contact, rfl, .inr ⟨hcheck, m, rfl, hrest⟩⟩⟩
      · exact ⟨1, _, .inr ⟨contact, rfl, .inl ⟨Bool.eq_not.mpr hcheck, rfl, rfl⟩⟩⟩

theorem Reading.Misses.ne_ok {read : Reading} {e : ConditionError} (h : read.Misses contactId e) (contact : Contact) :
    read ≠ .ok (some contact) := by
  cases h <;> simp

theorem Reading.Misses.unique {read : Reading} {e e' : ConditionError} (h : read.Misses contactId e)
    (h' : read.Misses contactId e') : e = e' := by
  cases h <;> cases h' <;> rfl

theorem judged_unique {m : Nat} {w : Except ConditionError Bool} (h : Judged contactId logic now reads conditions n v)
    (h' : Judged contactId logic now reads conditions m w) : n = m ∧ v = w := by
  induction conditions generalizing reads n m with
  | nil =>
    obtain ⟨rfl, rfl⟩ := judged_nil.mp h
    obtain ⟨rfl, rfl⟩ := judged_nil.mp h'
    exact ⟨rfl, rfl⟩
  | cons condition conditions ih =>
    rw [judged_cons] at h h'
    obtain ⟨e, hmisses, rfl, rfl⟩ | ⟨contact, hread, h⟩ := h
    · obtain ⟨e', hmisses', rfl, rfl⟩ | ⟨contact, hread, -⟩ := h'
      · exact ⟨rfl, congrArg _ (hmisses.unique hmisses')⟩
      · exact absurd hread (hmisses.ne_ok contact)
    · obtain ⟨e', hmisses', -⟩ | ⟨contact', hread', h'⟩ := h'
      · exact absurd hread (hmisses'.ne_ok contact)
      · cases hread.symm.trans hread'
        obtain ⟨hcheck, rfl, rfl⟩ | ⟨hcheck, k, rfl, h⟩ := h <;>
          obtain ⟨hcheck', rfl, rfl⟩ | ⟨hcheck', k', rfl, h'⟩ := h'
        · exact ⟨rfl, rfl⟩
        · exact absurd (hcheck.symm.trans hcheck') (by simp)
        · exact absurd (hcheck'.symm.trans hcheck) (by simp)
        · obtain ⟨rfl, hv⟩ := ih h h'
          exact ⟨rfl, hv⟩

/-- The contact is asked for, and only then is the first condition tested. -/
theorem evaluate_yields_cons {l : List Exchange} : (evaluate contactId logic now (condition :: conditions)).Yields l v ↔
    (∃ x e, Reading.Misses contactId x e ∧ l = [⟨.getContact contactId, x⟩] ∧ v = .error e) ∨
      ∃ contact rest, l = ⟨.getContact contactId, .ok (some contact)⟩ :: rest ∧
        (condition.check contact now = !logic.undecided ∧ rest = [] ∧ v = .ok !logic.undecided ∨
          condition.check contact now = logic.undecided ∧ (evaluate contactId logic now conditions).Yields rest v) := by
  rw [evaluate, Attempt.yields_bind_asked fun _ _ => Program.yields_request]
  constructor
  · rintro (⟨fault, rfl, rfl⟩ | ⟨found, rest, rfl, h⟩)
    · exact .inl ⟨_, _, .fault fault, rfl, rfl⟩
    · cases found with
      | none =>
        obtain ⟨rfl, rfl⟩ := h
        exact .inl ⟨_, _, .nobody, rfl, rfl⟩
      | some contact =>
        refine .inr ⟨contact, rest, rfl, ?_⟩
        cases logic <;> cases hcheck : condition.check contact now <;> simp only [hcheck] at h
        · exact .inl ⟨rfl, h⟩
        · exact .inr ⟨rfl, h⟩
        · exact .inr ⟨rfl, h⟩
        · exact .inl ⟨rfl, h⟩
  · rintro (⟨x, e, hmisses, rfl, rfl⟩ | ⟨contact, rest, rfl, h⟩)
    · cases hmisses with
      | fault e => exact .inl ⟨e, rfl, rfl⟩
      | nobody => exact .inr ⟨none, [], rfl, rfl, rfl⟩
    · refine .inr ⟨some contact, rest, rfl, ?_⟩
      obtain ⟨hcheck, h⟩ | ⟨hcheck, h⟩ := h <;> cases logic <;> simp only [hcheck, Logic.undecided]
      all_goals exact h

theorem evaluate_yields_iff : (evaluate contactId logic now conditions).Yields (readings contactId reads n) v ↔
    Judged contactId logic now reads conditions n v := by
  induction conditions generalizing reads n with
  | nil =>
    have hundecided : (logic == .and) = logic.undecided := by cases logic <;> rfl
    rw [judged_nil, evaluate, Attempt.yields_pure, hundecided]
    simp [readings]
  | cons condition conditions ih =>
    rw [judged_cons, evaluate_yields_cons]
    cases n with
    | zero => simp [readings_zero]
    | succ n =>
      -- The first read is of this condition; it is the last one exactly when there are no others.
      have hlast : readings contactId (fun i => reads (i + 1)) n = [] ↔ n + 1 = 1 := by simp [readings]
      rw [readings_succ]
      constructor
      · rintro (⟨x, e, hmisses, hl, rfl⟩ | ⟨contact, rest, hl, hrest⟩)
        · obtain ⟨hread, hnil⟩ := List.cons.inj hl
          cases hread
          exact .inl ⟨e, hmisses, hlast.mp hnil, rfl⟩
        · obtain ⟨hread, rfl⟩ := List.cons.inj hl
          refine .inr ⟨contact, eq_of_heq (Exchange.mk.inj hread).2, ?_⟩
          obtain ⟨hcheck, hnil, rfl⟩ | ⟨hcheck, hrest⟩ := hrest
          · exact .inl ⟨hcheck, hlast.mp hnil, rfl⟩
          · exact .inr ⟨hcheck, n, rfl, ih.mp hrest⟩
      · rintro (⟨e, hmisses, hn, rfl⟩ | ⟨contact, hread, hrest⟩)
        · exact .inl ⟨_, e, hmisses, congrArg _ (hlast.mpr hn), rfl⟩
        · refine .inr ⟨contact, _, by rw [hread], ?_⟩
          obtain ⟨hcheck, hn, rfl⟩ | ⟨hcheck, m, hm, hrest⟩ := hrest
          · exact .inl ⟨hcheck, hlast.mpr hn, rfl⟩
          · cases hm
            exact .inr ⟨hcheck, ih.mpr hrest⟩

theorem eq_readings {l : List Exchange} (h : ∀ e ∈ l, e.request = .getContact contactId) :
    ∃ reads, l = readings contactId reads l.length := by
  induction l with
  | nil => exact ⟨fun _ => .ok none, rfl⟩
  | cons e l ih =>
    obtain ⟨he, hl⟩ := List.forall_mem_cons.mp h
    obtain ⟨reads, hreads⟩ := ih hl
    obtain ⟨r, x⟩ := e
    cases he
    refine ⟨fun i => i.casesOn x reads, ?_⟩
    rw [List.length_cons, readings_succ, ← hreads]
    rfl

/-- Nothing is asked but the contact, once for each condition tested; and whatever the reads show, they end and what the
group then comes to is how it is judged by them. -/
theorem evaluate_judges (contactId : Int) (logic : Logic) (now : WallClock) (conditions : List Condition) :
    (∀ l v, (evaluate contactId logic now conditions).Yields l v → ∃ reads, l = readings contactId reads l.length) ∧
      ∀ reads, (∃! x : Nat × Except ConditionError Bool,
          (evaluate contactId logic now conditions).Yields (readings contactId reads x.1) x.2) ∧
        ∀ n v, (evaluate contactId logic now conditions).Yields (readings contactId reads n) v ↔
          Judged contactId logic now reads conditions n v := by
  refine ⟨fun l v h => eq_readings ?_, fun reads => ⟨?_, fun n v => evaluate_yields_iff⟩⟩
  · have hmeets : Attempt.Meets ⟨(· = .getContact contactId), fun _ _ => True⟩ (fun _ => True)
        (evaluate contactId logic now conditions) := evaluate_meets rfl logic now conditions
    exact (hmeets.of_yields h fun _ _ => trivial).1
  · obtain ⟨n, v, hjudged⟩ := exists_judged contactId logic now reads conditions
    refine ⟨(n, v), evaluate_yields_iff.mpr hjudged, fun x hx => ?_⟩
    obtain ⟨hn, hv⟩ := judged_unique (evaluate_yields_iff.mp hx) hjudged
    exact Prod.ext hn hv

end
end Outreach
