import Mathlib
import Outreach.Proofs.Database.Boards
import Outreach.Proofs.Service.Contacts
import Outreach.Proofs.Service.Updates

/-! Moving contacts from stage to stage. A stage is looked up by its id alone, over the boards of the contact's owner in
the order in which they are listed; the contact gets the tags of that stage which it does not have. -/
namespace Outreach

section Tags
variable {c : Contact}

theorem eraseDups_of_nodup {tags : List String} (h : tags.Nodup) : tags.eraseDups = tags := by
  induction tags with
  | nil => rfl
  | cons t tags ih =>
    obtain ⟨hnew, hrest⟩ := List.nodup_cons.mp h
    have hothers : (tags.filter fun u => !u == t) = tags :=
      List.filter_eq_self.mpr fun u hu => by simpa using fun heq : u = t => hnew (heq ▸ hu)
    rw [List.eraseDups_cons, hothers, ih hrest]

def Stage.missing (stage : Stage) (tags : List String) : List String :=
  (stage.tagsToApply.filter fun t => !tags.contains t).eraseDups

theorem Stage.mem_missing {stage : Stage} {tags : List String} {t : String} :
    t ∈ stage.missing tags ↔ t ∈ stage.tagsToApply ∧ t ∉ tags := by
  simp [missing]

def Contact.entered (c : Contact) (stage : Stage) : Contact :=
  { c with crmStageId := some stage.id, tags := c.tags ++ stage.missing c.tags }

theorem Contact.entered_tags_nodup (h : c.tags.Nodup) (stage : Stage) : (c.entered stage).tags.Nodup := by
  refine h.append ?_ fun t ht hmissing => (Stage.mem_missing.mp hmissing).2 ht
  rw [Stage.missing, ← Database.distinct_eq]
  exact Database.distinct_nodup _

/-- The patch sets the tags when there is one missing, and the stage anyway. -/
theorem written_stagePatch (h : c.tags.Nodup) (stage : Stage) : (Action.stagePatch c stage).written c = c.entered stage := by
  have htags : Action.withMissing c.tags stage.tagsToApply = (c.entered stage).tags := Action.withMissing_eq _ _
  have hdistinct : Database.distinct (c.entered stage).tags = (c.entered stage).tags :=
    (Database.distinct_eq _).trans (eraseDups_of_nodup (c.entered_tags_nodup h stage))
  simp only [Action.stagePatch, htags]
  -- Nothing was missing exactly when the number of tags stays the same.
  by_cases hlength : (c.entered stage).tags.length = c.tags.length
  · have hnone : stage.missing c.tags = [] := by
      rw [Contact.entered, List.length_append] at hlength
      exact List.length_eq_zero_iff.mp (by omega)
    rw [if_pos (beq_iff_eq.mpr hlength), Contact.entered, hnone, List.append_nil]
    rfl
  · rw [if_neg (mt beq_iff_eq.mp hlength)]
    simp only [ContactPatch.written, ContactPatch.apply, ContactPatch.empty, Option.map_some, hdistinct]
    rfl

end Tags

/-- The contacts that are stored: each can be read, and they have different ids, and one owner's different phones. -/
structure Database.Keeps (contacts : List Contact) (db : Database) : Prop where
  rows : db.contacts = contacts.map ContactRow.ofContact
  sound : ∀ c ∈ contacts, c.Sound
  differs : contacts.Pairwise Contact.Differs

theorem Stands.keeps {told : List Exchange} {db : Database} (h : Stands told db) : db.Keeps (lastWritten told) :=
  ⟨h.rows, h.sound, h.differs⟩

namespace Database.Keeps
variable {contacts : List Contact} {db : Database} {c : Contact} {p : ContactPatch}

theorem nodup (h : db.Keeps contacts) : (contacts.map (·.id)).Nodup :=
  List.pairwise_map.mpr (h.differs.imp fun hdiffers => hdiffers.1)

theorem contactKeys (h : db.Keeps contacts) : db.ContactKeys where
  ids := by
    rw [h.rows, List.map_map]
    exact h.nodup
  phones := by
    rw [h.rows]
    exact List.pairwise_map.mpr (h.differs.imp fun hdiffers hsame => hdiffers.2 ⟨Uuid.text_inj.mp hsame.1, hsame.2⟩)

theorem finds (h : db.Keeps contacts) (hc : c ∈ contacts) : db.Finds c.id (.ofContact c) c := by
  have hmem : ContactRow.ofContact c ∈ db.contacts := h.rows ▸ List.mem_map_of_mem hc
  exact h.contactKeys.finds hmem (h.sound c hc).read

theorem contact (h : db.Keeps contacts) (hc : c ∈ contacts) : db.contact? c.id = .ok (some c) := by
  rw [contact?, (h.finds hc).row, Option.mapM_some, (h.finds hc).read]
  rfl

/-- A patch that leaves the phone is applied to the contact and to no other. -/
theorem update (h : db.Keeps contacts) (hc : c ∈ contacts) (hphone : p.phone = none) (hparts : p.isEmpty = false) :
    db.updateContact c.id p = .ok { db with
      contacts := (contacts.map fun x => if x.id = c.id then p.written c else x).map ContactRow.ofContact } := by
  have hrows : (db.contacts.map fun r => if r.id = c.id then r.withColumnsOf (p.written c) else r) =
      (contacts.map fun x => if x.id = c.id then p.written c else x).map ContactRow.ofContact := by
    rw [h.rows, List.map_map, List.map_map]
    refine List.map_congr_left fun x hx => ?_
    by_cases hid : x.id = c.id
    · obtain rfl := List.inj_on_of_nodup_map h.nodup hx hc hid
      simp [ContactRow.withColumnsOf, ContactRow.ofContact, ContactPatch.written, ContactPatch.apply]
    · simp [hid, ContactRow.ofContact]
  rw [(h.finds hc).update p, hphone, Option.getD_none, (h.finds hc).free, if_neg Bool.false_ne_true, patched, hparts,
    if_neg Bool.false_ne_true, hrows]

theorem entered (h : db.Keeps contacts) (hc : c ∈ contacts) (stage : Stage) : Database.Keeps
    (contacts.map fun x => if x.id = c.id then c.entered stage else x)
    { db with contacts := (contacts.map fun x => if x.id = c.id then c.entered stage else x).map ContactRow.ofContact } := by
  refine ⟨rfl, List.forall_mem_map.mpr fun x hx => ?_, List.pairwise_map.mpr ?_⟩
  · split
    · rw [← written_stagePatch (h.sound c hc).tags]
      exact (h.sound c hc).written .nil
    · exact h.sound x hx
  · have hsame {x : Contact} (hx : x ∈ contacts) : ((if x.id = c.id then c.entered stage else x).id = x.id) ∧
        (if x.id = c.id then c.entered stage else x).userId = x.userId ∧
        (if x.id = c.id then c.entered stage else x).phone = x.phone := by
      split
      · rename_i hid
        obtain rfl := List.inj_on_of_nodup_map h.nodup hx hc hid
        exact ⟨rfl, rfl, rfl⟩
      · exact ⟨rfl, rfl, rfl⟩
    refine h.differs.imp_of_mem fun {x y} hx hy hdiffers => ?_
    obtain ⟨hid, huser, hphone⟩ := hsame hx
    obtain ⟨hid', huser', hphone'⟩ := hsame hy
    rwa [Contact.Differs, hid, hid', huser, huser', hphone, hphone']

end Database.Keeps

def firstStage? (boards : List Board) (stageId : String) : Option Stage :=
  (boards.flatMap (·.stages)).find? (·.id == stageId)

theorem firstStage?_cons (b : Board) (boards : List Board) (stageId : String) :
    firstStage? (b :: boards) stageId = (b.stages.find? (·.id == stageId)).or (firstStage? boards stageId) := by
  rw [firstStage?, List.flatMap_cons, List.find?_append]
  rfl

theorem firstStage?_filter {boards : List Board} {boardId stageId : String}
    (hothers : ∀ b ∈ boards, b.id ≠ boardId → ∀ stage ∈ b.stages, stage.id ≠ stageId) :
    firstStage? boards stageId = firstStage? (boards.filter (·.id == boardId)) stageId := by
  induction boards with
  | nil => rfl
  | cons b boards ih =>
    obtain ⟨hb, hrest⟩ := List.forall_mem_cons.mp hothers
    rw [firstStage?_cons, ih hrest, List.filter_cons]
    split
    · rw [firstStage?_cons]
    · rename_i hother
      have hnone : b.stages.find? (·.id == stageId) = none :=
        List.find?_eq_none.mpr fun stage hstage => by simpa using hb (mt beq_iff_eq.mpr hother) stage hstage
      rw [hnone, Option.none_or]

namespace Service
variable {around : Surroundings} {settings : EngineSettings} {s : Service} {contacts : List Contact} {c : Contact}
  {boards : List Board} {stageId : String}

def entering (contacts : List Contact) (c : Contact) (s : Service) : Option Stage → Service
  | none => s
  | some stage => { s with db := { s.db with
      contacts := (contacts.map fun x => if x.id = c.id then c.entered stage else x).map ContactRow.ofContact } }

theorem run_moveStage (hkeeps : s.db.Keeps contacts) (hc : c ∈ contacts) {snapshot : Contact} (hid : snapshot.id = c.id)
    (huser : snapshot.userId = c.userId) (hboards : s.db.listBoards c.userId = .ok boards) (hstage : stageId ≠ "") :
    (Action.moveStage snapshot stageId).run.run (answer around) s =
      some (.ok (), s.entering contacts c (firstStage? boards stageId)) := by
  have hstages : (Action.stored (.request (.allStages snapshot.userId))).run.run (answer around) s =
      some (.ok (boards.flatMap (·.stages)), s) := by
    refine Attempt.run_of_ok ?_
    rw [huser]
    exact congrArg (fun x => some (x, s)) (Database.allStages_of_listBoards hboards)
  have hcontact : (Action.stored (.request (.getContact snapshot.id))).run.run (answer around) s =
      some (.ok (some c), s) := by
    refine Attempt.run_of_ok ?_
    rw [hid]
    exact congrArg (fun x => some (x, s)) (hkeeps.contact hc)
  have hupdate (stage : Stage) :
      (Action.stored (.request (.updateContact snapshot.id (Action.stagePatch c stage)))).run.run (answer around) s =
        some (.ok (), s.entering contacts c (some stage)) := by
    have hwritten := hkeeps.update hc (p := Action.stagePatch c stage) rfl (by simp [Action.stagePatch, ContactPatch.isEmpty])
    rw [written_stagePatch (hkeeps.sound c hc).tags] at hwritten
    refine Attempt.run_of_ok ?_
    rw [hid]
    refine congrArg some ?_
    simp only [answer, writing, hwritten]
    rfl
  have hnonempty : stageId.isEmpty = false := by simpa using hstage
  unfold Action.moveStage
  rw [if_neg (by rw [hnonempty]; exact Bool.false_ne_true), Attempt.run_bind_of_ok hstages]
  cases hfirst : firstStage? boards stageId with
  | none =>
    rw [firstStage?] at hfirst
    simp only [hfirst]
    rfl
  | some stage =>
    rw [firstStage?] at hfirst
    simp only [hfirst]
    rw [Attempt.run_bind_of_ok hcontact]
    exact hupdate stage

theorem visit_moveStage {f : RunFrame} {node : Node} {boardId : String} (hkeeps : s.db.Keeps contacts) (hc : c ∈ contacts)
    (hid : f.contact.id = c.id) (huser : f.contact.userId = c.userId) (hboards : s.db.listBoards c.userId = .ok boards)
    (hstage : stageId ≠ "") (hnode : node.data = .action (.moveCrmStage boardId stageId)) :
    (f.visit settings node).run.run (answer around) s =
      some (.ok (.next (f.routes.next? node.id)), s.entering contacts c (firstStage? boards stageId)) := by
  have hperform : ((Action.moveCrmStage boardId stageId).perform settings f.contact f.context f.connection).run.run
      (answer around) s = some (.ok .completed, s.entering contacts c (firstStage? boards stageId)) :=
    Attempt.run_bind_of_ok (run_moveStage hkeeps hc hid huser hboards hstage)
  simp only [RunFrame.visit, hnode]
  exact Attempt.run_bind_of_ok hperform

theorem contact_entering (hkeeps : s.db.Keeps contacts) (hc : c ∈ contacts) (stage : Stage) :
    (s.entering contacts c (some stage)).db.contact? c.id = .ok (some (c.entered stage)) :=
  (hkeeps.entered hc stage).contact (List.mem_map.mpr ⟨c, hc, if_pos rfl⟩)

/-- A stage move leads to the first stage of its id over all boards of the contact's owner, and the run goes on. The stored
contact keeps its tags and gets those that it lacks, whatever else the run knows of it; nothing else changes. The board
is the one of the action when no other board has a stage of that id. -/
theorem moves_to_first_stage {f : RunFrame} {node : Node} {boardId : String} (hkeeps : s.db.Keeps contacts) (hc : c ∈ contacts)
    (hid : f.contact.id = c.id) (huser : f.contact.userId = c.userId) (hboards : s.db.listBoards c.userId = .ok boards)
    (hstage : stageId ≠ "") (hnode : node.data = .action (.moveCrmStage boardId stageId)) :
    ∃ s', (f.visit settings node).run.run (answer around) s = some (.ok (.next (f.routes.next? node.id)), s') ∧
      (∀ stage, firstStage? boards stageId = some stage →
        (∃ rows, s' = { s with db := { s.db with contacts := rows } }) ∧
          s'.db.contact? c.id =
            .ok (some { c with crmStageId := some stageId, tags := c.tags ++ stage.missing c.tags }) ∧
          (c.tags ++ stage.missing c.tags).Nodup ∧
          ∀ other ∈ contacts, other.id ≠ c.id → s'.db.contact? other.id = .ok (some other)) ∧
      (firstStage? boards stageId = none → s' = s) ∧
      ((∀ board ∈ boards, board.id ≠ boardId → ∀ stage ∈ board.stages, stage.id ≠ stageId) →
        firstStage? boards stageId = firstStage? (boards.filter (·.id == boardId)) stageId) := by
  refine ⟨_, visit_moveStage hkeeps hc hid huser hboards hstage hnode, fun stage hfirst => ?_, fun hnone => ?_, fun hothers => ?_⟩
  · have hentered : stage.id = stageId := beq_iff_eq.mp (List.find?_some hfirst :)
    rw [hfirst]
    refine ⟨⟨_, rfl⟩, ?_, c.entered_tags_nodup (hkeeps.sound c hc).tags stage, fun other hother hne => ?_⟩
    · rw [contact_entering hkeeps hc, Contact.entered, hentered]
    · exact (hkeeps.entered hc stage).contact (List.mem_map.mpr ⟨other, hother, if_neg hne⟩)
  · rw [hnone]
    rfl
  · exact firstStage?_filter hothers

def lead : Contact := ⟨1, .numbered 1, "Ana", "5581999900001", ["lead"], none, false, false, none, ⟨1717408800, 0⟩, []⟩

def retail : Board := ⟨"retail", .numbered 1, "Retail", [⟨"won", "Won", ["shopper"]⟩], ⟨1717408800, 0⟩⟩

def wholesale : Board := ⟨"wholesale", .numbered 1, "Wholesale", [⟨"won", "Won", ["lead", "dealer"]⟩], ⟨1717408860, 0⟩⟩

def trading (boards : List Board) : Service :=
  .new { Database.empty with contacts := [.ofContact lead], boards := boards.map .ofBoard } ⟨1717416000, 0⟩ 0

theorem keeps_trading (boards : List Board) : (trading boards).db.Keeps [lead] := by
  refine ⟨rfl, List.forall_mem_singleton.mpr ⟨by decide, .nil, ⟨⟨by decide, by decide, by decide⟩, by decide, rfl⟩, nofun⟩, ?_⟩
  exact List.pairwise_singleton _ _

theorem listBoards_trading : (trading [retail, wholesale]).db.listBoards (.numbered 1) = .ok [retail, wholesale] := by
  have hread {b : Board} (h : b.createdAt.Ordinary) (hplain : b.createdAt.IsPlain) (hmicros : b.createdAt.toMicros = b.createdAt) :
      (BoardRow.ofBoard b).read = .ok b := by
    refine (BoardRow.read_aged b b.createdAt.microsText).trans ?_
    rw [QueuedTask.instant_microsText h, if_pos hplain, hmicros]
    rfl
  have hrows : (trading [retail, wholesale]).db.boards.filter (·.userId == (Uuid.numbered 1).text) =
      [.ofBoard retail, .ofBoard wholesale] := by
    simp [trading, Service.new, BoardRow.ofBoard, retail, wholesale]
  rw [Database.listBoards, hrows, Database.byAge, List.mergeSort_of_pairwise (by decide +kernel)]
  refine mapM_eq_ok.mpr (.cons ?_ (.cons ?_ .nil))
  · exact hread ⟨by decide, by decide, by decide⟩ (by decide) rfl
  · exact hread ⟨by decide, by decide, by decide⟩ (by decide) rfl

def moving (boardId : String) : Node := ⟨"m", .action (.moveCrmStage boardId "won"), none⟩

def winning (boardId : String) : RunFrame where
  automation := ⟨default, .numbered 1, "Win", .active, [moving boardId], [], ⟨1717408800, 0⟩, false, false, []⟩
  contact := { lead with tags := [] }
  eventContext := .null
  connection := ⟨default, .numbered 1, "main", "1", "2", "key", ⟨1717408800, 0⟩⟩
  depth := 0

/-- The lead enters the stage of the retail board. -/
theorem moves_to_retail : ∃ s', ((winning "retail").visit Surroundings.offline.settings (moving "retail")).run.run (answer .offline)
      (trading [retail, wholesale]) = some (.ok (.next none), s') ∧
    s'.db.contact? 1 = .ok (some { lead with crmStageId := some "won", tags := ["lead", "shopper"] }) := by
  obtain ⟨s', hrun, hmoved, -⟩ := moves_to_first_stage (f := winning "retail") (keeps_trading [retail, wholesale])
    (List.mem_singleton_self lead) rfl rfl listBoards_trading (by decide : "won" ≠ "")
    (rfl : (moving "retail").data = .action (.moveCrmStage "retail" "won"))
  exact ⟨s', hrun, (hmoved ⟨"won", "Won", ["shopper"]⟩ (by decide +kernel)).2.1⟩

/-- On the way to the wholesale board, too: the tag is that of the retail board, and not "dealer". -/
theorem moves_past_wholesale : wholesale.stages.find? (·.id == "won") = some ⟨"won", "Won", ["lead", "dealer"]⟩ ∧
    ∃ s', ((winning "wholesale").visit Surroundings.offline.settings (moving "wholesale")).run.run (answer .offline)
        (trading [retail, wholesale]) = some (.ok (.next none), s') ∧
      s'.db.contact? 1 = .ok (some { lead with crmStageId := some "won", tags := ["lead", "shopper"] }) := by
  have hkeeps := keeps_trading [retail, wholesale]
  have hlead := List.mem_singleton_self lead
  have hfirst : firstStage? [retail, wholesale] "won" = some ⟨"won", "Won", ["shopper"]⟩ := by decide +kernel
  refine ⟨by decide +kernel, _, visit_moveStage hkeeps hlead rfl rfl listBoards_trading (by decide : "won" ≠ "") rfl, ?_⟩
  rw [hfirst]
  exact contact_entering hkeeps hlead _

end Service
end Outreach
