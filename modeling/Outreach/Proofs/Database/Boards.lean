import Mathlib
import Outreach.Database.Basic
import Outreach.Proofs.Attempts
import Outreach.Proofs.Json.Records
import Outreach.Proofs.Tasks.Queue

/-! Boards that are saved one after the other. A board takes the place of the one of its id, whosever that was: what is
saved for a user comes to that user and is taken from all others, and every other board stays as it is. -/
namespace Outreach
open Decode Json Fields

variable {o : Origin}

theorem Stage.decode_encode {limit k : Nat} (s : Stage) (hk : k + 2 ≤ limit) :
    Stage.decode o (docAt limit k s.encode) = .ok s := by
  have htags : Decode.list Decode.string o (docAt limit (k + 1) (Json.strs s.tagsToApply)) = .ok s.tagsToApply := by
    rw [strs, docAt, if_neg (by omega), itemDocs_eq, List.map_map]
    exact listFrom_map fun _ _ => rfl
  exact Reads.object_docAt (.ap (.ap (.map (.found (fun _ => rfl) rfl)) (.found (fun _ => rfl) rfl))
    (.found (fun _ => rfl) htags)) (by omega) (by simp)

theorem stages_text (stages : List Stage) :
    Stored.document "columns" (Decode.list Stage.decode) (Stored.listText Stage.encode stages) = .ok stages := by
  rw [Stored.document, Stored.listText, ofText_list fun s _ => s.decode_encode (by decide)]

namespace BoardRow

def aged (b : Board) (age : String) : BoardRow := { ofBoard b with createdAt := age }

/-- The row of a board can be read as long as its age can. -/
theorem read_aged (b : Board) (age : String) :
    (aged b age).read = (Stored.instant age).map fun t => { b with createdAt := t } := by
  have huser : Stored.uuid b.userId.text = .ok b.userId := by rw [Stored.uuid, Uuid.parse?_text]
  simp only [read, aged, ofBoard, huser, stages_text, bind, Except.bind]
  cases Stored.instant age <;> rfl

theorem id_of_read {r : BoardRow} {b : Board} (h : r.read = .ok b) : b.id = r.id := by
  obtain ⟨_, -, h⟩ := bind_eq_ok.mp h
  obtain ⟨_, -, h⟩ := bind_eq_ok.mp h
  obtain ⟨_, -, h⟩ := bind_eq_ok.mp h
  cases h
  rfl

end BoardRow

namespace Database
variable {db : Database} {saves : List Board} {user : Uuid}

def saveBoards (saves : List Board) (db : Database) : Database := saves.foldl (fun db b => db.saveBoard b) db

theorem saveBoard_boards (b : Board) (db : Database) :
    (db.saveBoard b).boards = if db.boards.any (·.id == b.id) then
        db.boards.map fun r => if r.id == b.id then .aged b r.createdAt else r
      else db.boards ++ [.ofBoard b] := by
  unfold saveBoard change
  cases hany : db.boards.any (·.id == b.id) <;> rfl

theorem saveBoards_eq (saves : List Board) (db : Database) :
    db.saveBoards saves = { db with boards := (db.saveBoards saves).boards } := by
  suffices h : ∃ rows, db.saveBoards saves = { db with boards := rows } by
    obtain ⟨rows, h⟩ := h
    rw [h]
  induction saves generalizing db with
  | nil => exact ⟨db.boards, rfl⟩
  | cons b rest ih =>
    obtain ⟨rows, hstep⟩ : ∃ rows, db.saveBoard b = { db with boards := rows } := by
      unfold saveBoard change
      cases db.boards.any (·.id == b.id) <;> exact ⟨_, rfl⟩
    obtain ⟨rows', hrest⟩ := ih (db.saveBoard b)
    rw [hstep] at hrest
    refine ⟨rows', ?_⟩
    rw [saveBoards, List.foldl_cons, hstep]
    exact hrest

section Sorting
variable {α : Type} {le : α → α → Bool}

theorem split_unique {q : α → Bool} {x y x' y' : List α} (h : x ++ y = x' ++ y') (hx : ∀ a ∈ x, q a = true)
    (hx' : ∀ a ∈ x', q a = true) (hy : ∀ a ∈ y, q a = false) (hy' : ∀ a ∈ y', q a = false) : x = x' ∧ y = y' := by
  have hleft (x y : List α) (hx : ∀ a ∈ x, q a = true) (hy : ∀ a ∈ y, q a = false) : (x ++ y).filter q = x := by
    rw [List.filter_append, List.filter_eq_self.mpr hx, List.filter_eq_nil_iff.mpr (by simpa using hy), List.append_nil]
  have hsame : x = x' := by rw [← hleft x y hx hy, h, hleft x' y' hx' hy']
  exact ⟨hsame, List.append_cancel_left (hsame ▸ h)⟩

/-- A stable sort keeps the rows that are left in the order they had among all. -/
theorem mergeSort_filter (htrans : ∀ a b c, le a b → le b c → le a c) (htotal : ∀ a b, le a b || le b a)
    (p : α → Bool) (l : List α) : (l.filter p).mergeSort le = (l.mergeSort le).filter p := by
  induction l with
  | nil => simp
  | cons a l ih =>
    obtain ⟨l₁, l₂, hsort, hrest, hbefore⟩ := List.mergeSort_cons htrans htotal a l
    rw [hsort, List.filter_append]
    rw [hrest, List.filter_append] at ih
    cases hp : p a with
    | false =>
      rw [List.filter_cons_of_neg (by simp [hp]), List.filter_cons_of_neg (by simp [hp]), ih]
    | true =>
      have hafter : ∀ b ∈ l₂, le a b := by
        have hsorted := List.pairwise_mergeSort htrans htotal (a :: l)
        rw [hsort] at hsorted
        exact (List.pairwise_cons.mp (List.pairwise_append.mp hsorted).2.1).1
      obtain ⟨m₁, m₂, hsort', hrest', hbefore'⟩ := List.mergeSort_cons htrans htotal a (l.filter p)
      have hafter' : ∀ b ∈ m₂, le a b := by
        have hsorted := List.pairwise_mergeSort htrans htotal (a :: l.filter p)
        rw [hsort'] at hsorted
        exact (List.pairwise_cons.mp (List.pairwise_append.mp hsorted).2.1).1
      obtain ⟨rfl, rfl⟩ := split_unique (q := fun b => !le a b) (hrest'.symm.trans ih) hbefore'
        (fun b hb => hbefore b (List.mem_of_mem_filter hb)) (fun b hb => by simp [hafter' b hb])
        (fun b hb => by simp [hafter b (List.mem_of_mem_filter hb)])
      rw [List.filter_cons_of_pos hp, List.filter_cons_of_pos hp, hsort']

theorem byAge_filter (createdAt id : α → String) (p : α → Bool) (rows : List α) :
    byAge createdAt id (rows.filter p) = (byAge createdAt id rows).filter p := by
  refine mergeSort_filter (fun a b c hab hbc => ?_) (fun a b => ?_) p rows
  · simp only [Bool.or_eq_true, Bool.and_eq_true, decide_eq_true_eq, beq_iff_eq] at *
    grind
  · simp only [Bool.or_eq_true, Bool.and_eq_true, decide_eq_true_eq, beq_iff_eq] at *
    grind

end Sorting

section Saving
variable {b : Board} {r : BoardRow} {p : BoardRow → Bool}

theorem mem_saveBoard : r ∈ (db.saveBoard b).boards ↔
    (∃ old ∈ db.boards, r = if old.id == b.id then .aged b old.createdAt else old) ∨
      (∀ old ∈ db.boards, old.id ≠ b.id) ∧ r = .ofBoard b := by
  rw [saveBoard_boards]
  split
  · rename_i hany
    obtain ⟨old, hold, hid⟩ := List.any_eq_true.mp hany
    rw [List.mem_map]
    constructor
    · rintro ⟨old', hold', rfl⟩
      exact .inl ⟨old', hold', rfl⟩
    · rintro (⟨old', hold', rfl⟩ | ⟨hnone, -⟩)
      · exact ⟨old', hold', rfl⟩
      · exact absurd (beq_iff_eq.mp hid) (hnone old hold)
  · rename_i hnone
    have hnone : ∀ old ∈ db.boards, old.id ≠ b.id := by simpa using hnone
    rw [List.mem_append, List.mem_singleton]
    constructor
    · rintro (hr | rfl)
      · exact .inl ⟨r, hr, (if_neg (by simpa using hnone r hr)).symm⟩
      · exact .inr ⟨hnone, rfl⟩
    · rintro (⟨old, hold, rfl⟩ | ⟨-, rfl⟩)
      · rw [if_neg (by simpa using hnone old hold)]
        exact .inl hold
      · exact .inr rfl

/-- Rows of a kind that the saved board is not of are those that were there, but for the one that it takes the place of. -/
theorem filter_saveBoard (h : ∀ age, p (.aged b age) = false) :
    (db.saveBoard b).boards.filter p = db.boards.filter fun r => p r && r.id != b.id := by
  rw [saveBoard_boards]
  split
  · have hrow (r : BoardRow) : p (if r.id == b.id then .aged b r.createdAt else r) = (p r && r.id != b.id) := by
      by_cases hid : r.id = b.id <;> simp [hid, h]
    have hkept : db.boards.filter (p ∘ fun r => if r.id == b.id then .aged b r.createdAt else r) =
        db.boards.filter fun r => p r && r.id != b.id := List.filter_congr fun r _ => hrow r
    rw [List.filter_map, hkept]
    refine (List.map_congr_left fun r hr => ?_).trans (List.map_id _)
    have hid := (Bool.and_eq_true_iff.mp (List.mem_filter.mp hr).2).2
    rw [if_neg (by simpa using hid), id]
  · rename_i hnone
    have hnone : ∀ r ∈ db.boards, r.id ≠ b.id := by simpa using hnone
    have hnew : p (.ofBoard b) = false := h b.createdAt.microsText
    rw [List.filter_append, List.filter_cons_of_neg (by simp [hnew]), List.filter_nil, List.append_nil]
    refine List.filter_congr fun r hr => ?_
    rw [bne_iff_ne.mpr (hnone r hr), Bool.and_true]

theorem filter_saveBoards (h : ∀ b ∈ saves, ∀ age, p (.aged b age) = false) :
    (db.saveBoards saves).boards.filter p = db.boards.filter fun r => p r && decide (r.id ∉ saves.map (·.id)) := by
  induction saves generalizing db with
  | nil => simp [saveBoards]
  | cons b rest ih =>
    obtain ⟨hb, hrest⟩ := List.forall_mem_cons.mp h
    refine (ih hrest).trans ((filter_saveBoard fun age => by rw [hb, Bool.false_and]).trans ?_)
    refine List.filter_congr fun r _ => ?_
    by_cases hid : r.id = b.id <;> simp [hid]

/-- A saved board is in its place, and in no other row of its id. -/
theorem saved_saveBoard : (∃ r ∈ (db.saveBoard b).boards, r.id = b.id) ∧
    ∀ r ∈ (db.saveBoard b).boards, r.id = b.id → ∃ age, r = .aged b age := by
  constructor
  · by_cases hold : ∃ old ∈ db.boards, old.id = b.id
    · obtain ⟨old, hold, hid⟩ := hold
      exact ⟨.aged b old.createdAt, mem_saveBoard.mpr (.inl ⟨old, hold, by simp [hid]⟩), rfl⟩
    · exact ⟨.ofBoard b, mem_saveBoard.mpr (.inr ⟨by simpa using hold, rfl⟩), rfl⟩
  · intro r hr hid
    obtain ⟨old, hold, rfl⟩ | ⟨-, rfl⟩ := mem_saveBoard.mp hr
    · by_cases hsame : old.id = b.id
      · exact ⟨old.createdAt, if_pos (beq_iff_eq.mpr hsame)⟩
      · rw [if_neg (by simpa using hsame)] at hid
        exact absurd hid hsame
    · exact ⟨b.createdAt.microsText, rfl⟩

theorem mem_saveBoard_of_ne (hid : r.id ≠ b.id) : r ∈ (db.saveBoard b).boards ↔ r ∈ db.boards := by
  have hrows : (db.saveBoard b).boards.filter (·.id == r.id) = db.boards.filter fun r' => r'.id == r.id && r'.id != b.id :=
    filter_saveBoard fun age => by simpa [BoardRow.aged, BoardRow.ofBoard] using Ne.symm hid
  have hmem := congrArg (r ∈ ·) hrows
  simpa [hid] using hmem

theorem saveBoards_concat (saves : List Board) (b : Board) (db : Database) :
    db.saveBoards (saves ++ [b]) = (db.saveBoards saves).saveBoard b := by simp [saveBoards]

/-- The last board that is saved under an id is in its place, and no other row is of that id. -/
theorem saved_saveBoards (db : Database) {id : String} {last : Board} (h : (saves.filter (·.id == id)).getLast? = some last) :
    (∃ r ∈ (db.saveBoards saves).boards, r.id = id) ∧
      ∀ r ∈ (db.saveBoards saves).boards, r.id = id → ∃ age, r = .aged last age := by
  induction saves using List.reverseRecOn with
  | nil => cases h
  | append_singleton saves b ih =>
    rw [saveBoards_concat]
    rw [List.filter_append] at h
    by_cases hid : b.id = id
    · rw [List.filter_cons_of_pos (by simpa using hid), List.filter_nil, List.getLast?_concat] at h
      cases h
      exact hid ▸ saved_saveBoard
    · rw [List.filter_cons_of_neg (by simpa using hid), List.filter_nil, List.append_nil] at h
      obtain ⟨⟨r, hr, hrid⟩, hall⟩ := ih h
      refine ⟨⟨r, (mem_saveBoard_of_ne (hrid ▸ Ne.symm hid)).mpr hr, hrid⟩, fun r' hr' hrid' => ?_⟩
      exact hall r' ((mem_saveBoard_of_ne (hrid' ▸ Ne.symm hid)).mp hr') hrid'

theorem keeps_age (saves : List Board) {old : BoardRow} (hold : old ∈ db.boards) :
    ∃ r ∈ (db.saveBoards saves).boards, r.id = old.id ∧ r.createdAt = old.createdAt := by
  induction saves generalizing db old with
  | nil => exact ⟨old, hold, rfl, rfl⟩
  | cons b rest ih =>
    have hrow : (if old.id == b.id then .aged b old.createdAt else old) ∈ (db.saveBoard b).boards :=
      mem_saveBoard.mpr (.inl ⟨old, hold, rfl⟩)
    obtain ⟨r, hr, hid, hage⟩ := ih hrow
    refine ⟨r, hr, hid.trans ?_, hage.trans ?_⟩
    · by_cases hsame : old.id = b.id <;> simp [hsame, BoardRow.aged, BoardRow.ofBoard]
    · by_cases hsame : old.id = b.id <;> simp [hsame, BoardRow.aged]

/-- A row is as old as the one in its place was, or as new as a board that was saved where there was none. -/
theorem age_of_saveBoards (hr : r ∈ (db.saveBoards saves).boards) :
    (∃ old ∈ db.boards, old.id = r.id ∧ old.createdAt = r.createdAt) ∨
      (∀ old ∈ db.boards, old.id ≠ r.id) ∧ ∃ b ∈ saves, b.id = r.id ∧ b.createdAt.microsText = r.createdAt := by
  induction saves generalizing db with
  | nil => exact .inl ⟨r, hr, rfl, rfl⟩
  | cons b rest ih =>
    obtain ⟨old, hold, hid, hage⟩ | ⟨hnone, b', hb', hid, hage⟩ := ih hr
    · obtain ⟨older, holder, rfl⟩ | ⟨hnone, rfl⟩ := mem_saveBoard.mp hold
      · refine .inl ⟨older, holder, ?_, ?_⟩
        · rw [← hid]
          by_cases hsame : older.id = b.id <;> simp [hsame, BoardRow.aged, BoardRow.ofBoard]
        · rw [← hage]
          by_cases hsame : older.id = b.id <;> simp [hsame, BoardRow.aged]
      · exact .inr ⟨fun old hold => hid ▸ hnone old hold, b, List.mem_cons_self, hid, hage⟩
    · refine .inr ⟨fun old hold => ?_, b', List.mem_cons_of_mem _ hb', hid, hage⟩
      obtain ⟨row, hrow, hrowid, -⟩ := keeps_age [b] hold
      exact hrowid ▸ hnone row hrow

end Saving

section Listing
variable {v : Uuid} {ids : List String} {db' : Database} {boards : List Board}

theorem mem_listed {r : BoardRow} : r ∈ byAge (·.createdAt) (·.id) (db.boards.filter (·.userId == v.text)) ↔
    r ∈ db.boards ∧ r.userId = v.text := by
  rw [byAge, List.mem_mergeSort, List.mem_filter, beq_iff_eq]

/-- The boards of a user can be listed as long as each of their rows can be read. -/
theorem listBoards_isOk :
    (∃ boards, db.listBoards v = .ok boards) ↔ ∀ r ∈ db.boards, r.userId = v.text → ∃ b, r.read = .ok b := by
  rw [listBoards, mapM_isOk]
  exact ⟨fun h r hr huser => h r (mem_listed.mpr ⟨hr, huser⟩), fun h r hr => h r (mem_listed.mp hr).1 (mem_listed.mp hr).2⟩

theorem filter_listBoards (ids : List String) (h : db.listBoards v = .ok boards) :
    ((byAge (·.createdAt) (·.id) ((db.boards.filter (·.userId == v.text)).filter fun r => decide (r.id ∉ ids))).mapM
      BoardRow.read) = .ok (boards.filter fun b => decide (b.id ∉ ids)) := by
  rw [byAge_filter]
  refine mapM_filter h fun r _ b hread => ?_
  rw [BoardRow.id_of_read hread]

/-- Without the rows of some ids a user's boards are listed without those. -/
theorem listBoards_without (hrows : db'.boards.filter (·.userId == v.text) =
      db.boards.filter fun r => r.userId == v.text && decide (r.id ∉ ids))
    (h : db.listBoards v = .ok boards) : db'.listBoards v = .ok (boards.filter fun b => decide (b.id ∉ ids)) := by
  rw [listBoards, hrows, ← filter_listBoards ids h, List.filter_filter]
  simp only [Bool.and_comm]

theorem allStages_of_listBoards (h : db.listBoards v = .ok boards) :
    db.allStages v = .ok (boards.flatMap (·.stages)) := by rw [allStages, h]; rfl

end Listing
end Database
end Outreach
