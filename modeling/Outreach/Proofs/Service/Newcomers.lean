import Outreach.Proofs.Service.Holders
import Outreach.Proofs.Service.Interleaving
import Outreach.Proofs.Service.Reception

/-! Several webhook requests at once with the phone of one newcomer. One contact is made and no second one; but whoever
has looked up the phone before it was there, and comes too late to make it, is turned away, and fires nothing. -/
namespace Outreach
open Program Service

theorem eq_of_filterMap_singleton {α β : Type} {f : α → Option β} {l : List α} {b : β} (h : l.filterMap f = [b])
    {x y : α} (hx : x ∈ l) (hy : y ∈ l) (hfx : (f x).isSome = true) (hfy : (f y).isSome = true) : x = y := by
  obtain ⟨c, hc⟩ := Option.isSome_iff_exists.mp hfx
  obtain ⟨pre, post, rfl⟩ := List.append_of_mem hx
  rw [List.filterMap_append, List.filterMap_cons_some hc, List.append_eq_singleton_iff] at h
  obtain ⟨hpre, hrest⟩ | ⟨-, hrest⟩ := h
  · obtain ⟨-, hpost⟩ := List.cons.inj hrest
    have hnone : ∀ z ∈ pre ++ post, f z = none :=
      List.forall_mem_append.mpr ⟨List.filterMap_eq_nil_iff.mp hpre, List.filterMap_eq_nil_iff.mp hpost⟩
    by_contra hne
    have hz : y ∈ pre ++ post := by simpa [Ne.symm hne] using hy
    rw [hnone y hz] at hfy
    cases hfy
  · cases hrest

namespace Intake

/-- Before the calls: the webhook does not listen, and its owner has a connection and no contact with the phone. -/
structure Awaits (s : Service) (webhookId phone : String) (automations : List Automation) (a : Automation)
    (connection : Connection) : Prop where
  ids : s.db.ContactIds
  listed : s.db.listAutomations .all = .ok automations
  found : receiver? webhookId automations = some a
  quiet : a.listensOn? webhookId = some false
  connected : s.db.firstConnection a.userId = .ok (some connection)
  absent : s.db.findContact a.userId phone = .ok none

section
variable (owner : Uuid) (phone : String) (connection : Connection) (automations : List Automation)

def made (t : List Deed) : List Contact := t.filterMap fun d => d.exchange.made? owner phone

def Tells (made : List Contact) : Exchange → Prop
  | ⟨.listAutomations .all, .ok found⟩ =>
    found.map Automation.uncounted = automations.map Automation.uncounted
  | ⟨.findContact u p, .ok (some c)⟩ => u = owner → p = phone → c.id ∈ made.map (·.id)
  | ⟨.createContact c, .error e⟩ => c.userId = owner → c.phone = phone → e = Database.phoneConflict phone ∧ made ≠ []
  | ⟨.firstConnection u, x⟩ => u = owner → x = .ok (some connection)
  | _ => True

structure Calm (s : Service) (t : List Deed) (s₁ : Service) : Prop where
  intake : ∀ d ∈ t, d.exchange.request.IsIntake
  graphs : s.db.SameGraphs s₁.db
  connections : s₁.db.connections = s.db.connections
  held : s₁.db.Held owner phone (made owner phone t)
  told : ∀ d ∈ t, Tells owner phone connection automations (made owner phone t) d.exchange

end

variable {owner : Uuid} {phone : String} {connection : Connection} {automations : List Automation}
  {around : Surroundings} {s s₁ s₂ : Service} {t : List Deed}

theorem Tells.mono {made more : List Contact} {e : Exchange} (h : Tells owner phone connection automations made e) :
    Tells owner phone connection automations (made ++ more) e := by
  unfold Tells at h ⊢
  split
  · exact h
  · intro hu hp
    rw [List.map_append]
    exact List.mem_append_left _ (h hu hp)
  · intro hu hp
    exact ⟨(h hu hp).1, List.append_ne_nil_of_left_ne_nil (h hu hp).2 _⟩
  · exact h
  · trivial

theorem Calm.tells (h : Calm owner phone connection automations s t s₁)
    (hlisted : s.db.listAutomations .all = .ok automations)
    (hconnected : s.db.firstConnection owner = .ok (some connection))
    {e : Exchange} (hanswers : Answers around e.request s₁ e.reply s₂) :
    Tells owner phone connection automations (made owner phone t) e := by
  unfold Tells
  -- One case for each of the four kinds of exchange that `Tells` speaks of.
  split
  · rename_i found
    have hreply : Except.ok found = s₁.db.listAutomations .all := (hanswers.lookup trivial).1
    exact h.graphs.map_uncounted hlisted hreply.symm
  · rename_i u p c
    intro hu hp
    have hreply : Except.ok (some c) = s₁.db.findContact u p := by
      obtain ⟨clock, network, seed, hanswer⟩ := hanswers
      exact (congrArg Prod.fst hanswer).symm
    rw [hu, hp, Database.findContact_eq_holders] at hreply
    cases hhead : (s₁.db.holders owner phone).head? with
    | none =>
      rw [hhead] at hreply
      cases hreply
    | some row =>
      rw [hhead, Option.mapM_some] at hreply
      obtain ⟨c', hread, hc⟩ := map_eq_ok.mp hreply.symm
      cases hc
      rw [(ContactRow.kept_of_read hread).1, ← h.held.rows]
      exact List.mem_map_of_mem (List.mem_of_head? hhead)
  · rename_i c e
    intro hu hp
    obtain ⟨now, contact, hmade, -⟩ | ⟨herror, -, htaken⟩ := hanswers.createContact
    · cases hmade
    · cases herror
      rw [hu, hp, h.held.ids.taken_iff] at htaken
      refine ⟨by rw [hp], fun hnone => htaken ?_⟩
      have hrows := h.held.rows
      rw [hnone] at hrows
      exact List.map_eq_nil_iff.mp hrows
  · rename_i u x
    intro hu
    have hreply : x = s₁.db.firstConnection u := (hanswers.lookup trivial).1
    rw [hreply, hu, ← hconnected, Database.firstConnection, Database.firstConnection, Database.connectionRows,
      Database.connectionRows, h.connections]
  · trivial

theorem Calm.snoc (h : Calm owner phone connection automations s t s₁)
    (hlisted : s.db.listAutomations .all = .ok automations)
    (hconnected : s.db.firstConnection owner = .ok (some connection))
    {d : Deed} (hd : d.exchange.request.IsIntake)
    (hphone : ∀ id p, d.exchange.request = .updateContact id p → p.phone = none)
    (hanswers : Answers around d.exchange.request s₁ d.exchange.reply s₂) :
    Calm owner phone connection automations s (t ++ [d]) s₂ := by
  have hmade : made owner phone (t ++ [d]) = made owner phone t ++ (d.exchange.made? owner phone).toList := by
    rw [made, List.filterMap_append, ← made]
    congr 1
  refine ⟨?_, h.graphs.trans (hanswers.sameGraphs hd.keepsGraphs), (hanswers.intake hd).1.trans h.connections, ?_, ?_⟩
  · exact List.forall_mem_append.mpr ⟨h.intake, List.forall_mem_singleton.mpr hd⟩
  · rw [hmade]
    exact hanswers.held hd hphone h.held
  · rw [hmade]
    refine List.forall_mem_append.mpr ⟨fun d' hd' => (h.told d' hd').mono, List.forall_mem_singleton.mpr ?_⟩
    exact (h.tells hlisted hconnected hanswers).mono

/-- The webhook is found again, as its owner's that does not listen. -/
theorem Awaits.receiver {webhookId : String} {a : Automation} (h : Awaits s webhookId phone automations a connection)
    {found : List Automation} (hsame : found.map Automation.uncounted = automations.map Automation.uncounted) :
    ∃ a', receiver? webhookId found = some a' ∧ a'.userId = a.userId ∧ a'.listensOn? webhookId = some false := by
  have hmap (l : List Automation) :
      (receiver? webhookId l).map Automation.uncounted = receiver? webhookId (l.map Automation.uncounted) := by
    rw [receiver?, receiver?, List.find?_map]
    rfl
  have hreceiver := hmap found
  rw [hsame, ← hmap, h.found, Option.map_some, Option.map_eq_some_iff] at hreceiver
  obtain ⟨a', hfound, huncounted⟩ := hreceiver
  have huser : a'.uncounted.userId = a.uncounted.userId := by rw [huncounted]
  have hquiet : a'.uncounted.listensOn? webhookId = a.uncounted.listensOn? webhookId := by rw [huncounted]
  exact ⟨a', hfound, huser, hquiet.trans h.quiet⟩

section
variable {settings : EngineSettings} {limit : Nat} {webhookId : String} {a : Automation} {bodies : Nat → Json}
  {s' : Service}

/-- Nothing is captured, and all stays as it is told of, whatever the calls ask. -/
theorem calm_of_interleaves (hawaits : Awaits s webhookId phone automations a connection)
    (h : Interleaves around Request.IsFiring (fun i => (handle settings limit webhookId (bodies i)).run) s t s')
    (hphones : ∀ d ∈ t, ∀ id p, d.exchange.request = .updateContact id p → p.phone = none) :
    Calm a.userId phone connection automations s t s' := by
  have hstart : Calm a.userId phone connection automations s [] s := by
    refine ⟨List.forall_mem_nil _, .refl _, rfl, ⟨hawaits.ids, ?_, Nat.zero_le 1⟩, List.forall_mem_nil _⟩
    have hfree := Database.findContact_eq_none.mp hawaits.absent
    have hnone : s.db.holders a.userId phone = [] := by
      simpa [Database.holders, List.filter_eq_nil_iff] using hfree
    rw [hnone]
    rfl
  refine h.history.keeps List.prefix_rfl hstart fun pre d s₁ s₂ hpre hcalm hanswers => ?_
  have hd : d ∈ t := hpre.subset (List.mem_append_right _ List.mem_cons_self)
  refine hcalm.snoc hawaits.listed hawaits.connected ?_ (hphones d hd) hanswers
  obtain ⟨owner, e⟩ := d
  cases owner with
  | none => exact (h.elsewhere _ hd rfl).isIntake
  | some i =>
    have he : e ∈ Deed.own i t := Deed.mem_own.mpr hd
    have hfirst (first : Exchange) (rest : List Exchange) (hown : Deed.own i t = first :: rest) :=
      Deed.first_before hpre hown
    obtain ⟨x, hyields⟩ := h.whole i (List.ne_nil_of_mem he)
    generalize Deed.own i t = l at he hfirst hyields
    cases handle_yields_iff.mp hyields with
    | unlisted | unknown | phoneless =>
      cases List.mem_singleton.mp he
      exact .inl trivial
    | @captured found a' hfound listening saved =>
      -- what was listed for the call before is what there was at first, where nothing listens
      obtain rfl | hlisted := hfirst _ _ rfl
      · exact .inl trivial
      · have hsame : found.map Automation.uncounted = automations.map Automation.uncounted := hcalm.told _ hlisted
        obtain ⟨b, hb, -, hquiet⟩ := hawaits.receiver hsame
        cases hfound.symm.trans hb
        cases listening.symm.trans hquiet
    | served found quiet given served =>
      obtain rfl | he := List.mem_cons.mp he
      · exact .inl trivial
      · exact served.isIntake e he

section
variable (settings limit) (owner : Uuid) (phone : String) (connection : Connection)

inductive Fires (body : Json) (contact : Contact) (created : Bool) :
    List Exchange → Except IntakeError IntakeOutcome → Prop where
  | mk (listed : List Automation) {found after : List Exchange} {c : Contact} {reports : List DispatchReport}
    (finds : Finds owner phone body found (.ok (c, created))) (same : c.id = contact.id)
    (fired : FiredEach settings limit contact.id (.user owner (some connection)) (events body contact created) after
      reports) :
    Fires body contact created (⟨.listAutomations .all, .ok listed⟩ :: found ++
      ⟨.firstConnection owner, .ok (some connection)⟩ :: after) (.ok (.dispatched contact.id created reports))

inductive ComesLate (body : Json) : List Exchange → Except IntakeError IntakeOutcome → Prop where
  | mk (listed : List Automation) (boards : List Board) :
    ComesLate body [⟨.listAutomations .all, .ok listed⟩, ⟨.findContact owner phone, .ok none⟩,
      ⟨.listBoards owner, .ok boards⟩,
      ⟨.createContact (newContact owner phone body boards), .error (Database.phoneConflict phone)⟩]
      (.error (.repository (Database.phoneConflict phone)))

end

theorem fate_of_served {body : Json} {l : List Exchange} {x : Except IntakeError IntakeOutcome} {made : List Contact}
    (listed : List Automation) (h : Served settings limit owner phone body l x)
    (htold : ∀ e ∈ l, Tells owner phone connection automations made e)
    (hfaults : ∀ e ∈ l, e.request.IsFault e.reply → ∃ c, e.request = .createContact c) :
    (∃ c created, Fires settings limit owner phone connection body c created
      (⟨.listAutomations .all, .ok listed⟩ :: l) x ∧
      if created then ∃ e ∈ l, e.made? owner phone = some c else c.id ∈ made.map (·.id)) ∨
    ComesLate owner phone body (⟨.listAutomations .all, .ok listed⟩ :: l) x ∧ made ≠ [] := by
  have hfault {r : Request} {x : r.Reply} (hmem : ⟨r, x⟩ ∈ l) (hx : r.IsFault x) (hr : ∀ c, r ≠ .createContact c) :
      False := by
    obtain ⟨c, hc⟩ := hfaults _ hmem hx
    exact hr c hc
  cases h with
  | unfound finds =>
    cases finds with
    | lookupFailed e => exact (hfault List.mem_cons_self ⟨e, rfl⟩ nofun).elim
    | boardsFailed e => exact (hfault (List.mem_cons_of_mem _ List.mem_cons_self) ⟨e, rfl⟩ nofun).elim
    | notMade boards e =>
      obtain ⟨he, hmade⟩ := htold ⟨.createContact (newContact owner phone body boards), .error e⟩ (by simp) rfl rfl
      subst he
      exact .inr ⟨.mk listed boards, hmade⟩
  | connectionFailed finds e => exact (hfault (r := .firstConnection owner) (by simp) ⟨e, rfl⟩ nofun).elim
  | unconnected finds =>
    have hconnected : Except.ok none = Except.ok (some connection) :=
      htold ⟨.firstConnection owner, .ok none⟩ (by simp) rfl
    cases hconnected
  | @stopped l ls contact created first e finds stops =>
    obtain ⟨exchange, hmem, hlookup, hx⟩ := stops.exists_fault
    refine (hfault (r := exchange.request) (by simp [hmem]) hx fun c hc => ?_).elim
    rw [hc] at hlookup
    exact hlookup
  | @dispatched l ls contact created first reports finds fired =>
    have hconnected : Except.ok (some first) = Except.ok (some connection) :=
      htold ⟨.firstConnection owner, .ok (some first)⟩ (by simp) rfl
    cases hconnected
    refine .inl ⟨contact, created, .mk listed finds rfl fired, ?_⟩
    cases finds with
    | known => exact htold ⟨.findContact owner phone, .ok (some contact)⟩ (by simp) rfl rfl
    | made boards =>
      exact ⟨⟨.createContact (newContact owner phone body boards), .ok contact⟩, by simp, if_pos ⟨rfl, rfl⟩⟩

theorem Fires.of_id {body : Json} {c contact : Contact} {l : List Exchange} {x : Except IntakeError IntakeOutcome}
    (h : Fires settings limit owner phone connection body c false l x) (hid : c.id = contact.id) :
    Fires settings limit owner phone connection body contact false l x := by
  cases h with
  | mk listed finds same fired =>
    rw [hid] at same fired ⊢
    exact .mk listed finds same fired

def LooksInVain (owner : Uuid) (phone : String) (l : List Exchange) : Prop := ⟨.findContact owner phone, .ok none⟩ ∈ l

theorem Fires.looksInVain_iff {body : Json} {contact : Contact} {created : Bool} {l : List Exchange}
    {x : Except IntakeError IntakeOutcome} (h : Fires settings limit owner phone connection body contact created l x) :
    LooksInVain owner phone l ↔ created = true := by
  cases h with
  | mk listed finds same fired =>
    have hfired : (⟨.findContact owner phone, .ok none⟩ : Exchange) ∉ _ := fun hmem =>
      or_self_iff.mp (fired.isFiring _ hmem)
    cases finds with
    | known => simp [LooksInVain, hfired]
    | made => simp [LooksInVain]

theorem made?_of_isFiring {e : Exchange} (h : e.request.IsFiring) : e.made? owner phone = none := by
  unfold Exchange.made?
  split
  · exact (or_self_iff.mp (show False ∨ False from h)).elim
  · rfl

theorem Fires.made?_eq_none {body : Json} {contact : Contact} {l : List Exchange} {x : Except IntakeError IntakeOutcome}
    (h : Fires settings limit owner phone connection body contact false l x) : ∀ e ∈ l, e.made? owner phone = none := by
  cases h with
  | mk listed finds same fired =>
    cases finds with
    | known =>
      refine List.forall_mem_cons.mpr ⟨rfl, List.forall_mem_cons.mpr ⟨rfl, List.forall_mem_cons.mpr ⟨rfl, ?_⟩⟩⟩
      exact fun e he => made?_of_isFiring (fired.isFiring e he)

theorem ComesLate.made?_eq_none {body : Json} {l : List Exchange} {x : Except IntakeError IntakeOutcome}
    (h : ComesLate owner phone body l x) : ∀ e ∈ l, e.made? owner phone = none := by
  cases h with
  | mk listed boards =>
    simp only [List.forall_mem_cons]
    exact ⟨rfl, rfl, rfl, rfl, List.forall_mem_nil _⟩

theorem ComesLate.looksInVain {body : Json} {l : List Exchange} {x : Except IntakeError IntakeOutcome}
    (h : ComesLate owner phone body l x) : LooksInVain owner phone l := by
  cases h with
  | mk listed boards => exact List.mem_cons_of_mem _ List.mem_cons_self

theorem ComesLate.not_fires {body : Json} {contact : Contact} {created : Bool} {l : List Exchange}
    {x y : Except IntakeError IntakeOutcome} (h : ComesLate owner phone body l x) :
    ¬ Fires settings limit owner phone connection body contact created l y := by
  intro hfires
  have hconnected : ∃ e ∈ l, e.request = .firstConnection owner := by
    cases hfires with
    | mk listed finds same fired => exact ⟨_, List.mem_append_right _ List.mem_cons_self, rfl⟩
  cases h with
  | mk listed boards => simp at hconnected

/-- What came of the calls would be right: there is one contact, each call fires the webhook event for it, and one of them
those of its making. -/
structure LosesNone (settings : EngineSettings) (limit : Nat) (webhookId : String) (owner : Uuid) (phone : String)
    (connection : Connection) (bodies : Nat → Json) (t : List Deed) (s' : Service) (contact : Contact) : Prop where
  one : (s'.db.holders owner phone).map (·.id) = [contact.id]
  fires : ∀ i, Deed.own i t ≠ [] → ∃ created x, (handle settings limit webhookId (bodies i)).Yields (Deed.own i t) x ∧
    Fires settings limit owner phone connection (bodies i) contact created (Deed.own i t) x
  first : ∃! i, Deed.own i t ≠ [] ∧ ∃ x,
    Fires settings limit owner phone connection (bodies i) contact true (Deed.own i t) x

section
variable (hawaits : Awaits s webhookId phone automations a connection) (hgives : ∀ i, Gives (bodies i) phone)
  (h : Interleaves around Request.IsFiring (fun i => (handle settings limit webhookId (bodies i)).run) s t s')
  (hfaults : ∀ d ∈ t, d.exchange.request.IsFault d.exchange.reply → ∃ c, d.exchange.request = .createContact c)
  (hphones : ∀ d ∈ t, ∀ id p, d.exchange.request = .updateContact id p → p.phone = none)
include hawaits hgives h hfaults hphones

/-- Each call that takes part comes to its events or too late. -/
theorem exists_fate {i : Nat} (hi : Deed.own i t ≠ []) : ∃ x,
    (handle settings limit webhookId (bodies i)).Yields (Deed.own i t) x ∧
    ((∃ c created, Fires settings limit a.userId phone connection (bodies i) c created (Deed.own i t) x ∧
        if created then ∃ e ∈ Deed.own i t, e.made? a.userId phone = some c
        else c.id ∈ (made a.userId phone t).map (·.id)) ∨
      ComesLate a.userId phone (bodies i) (Deed.own i t) x ∧ made a.userId phone t ≠ []) := by
  have hcalm := calm_of_interleaves hawaits h hphones
  have htold : ∀ e ∈ Deed.own i t, Tells a.userId phone connection automations (made a.userId phone t) e :=
    fun e he => hcalm.told _ (Deed.mem_own.mp he)
  have hown : ∀ e ∈ Deed.own i t, e.request.IsFault e.reply → ∃ c, e.request = .createContact c :=
    fun e he => hfaults _ (Deed.mem_own.mp he)
  obtain ⟨x, hyields⟩ := h.whole i hi
  refine ⟨x, hyields, ?_⟩
  have hhandled := handle_yields_iff.mp hyields
  generalize Deed.own i t = l at htold hown hhandled
  have hreceiver {found : List Automation} (hmem : ⟨.listAutomations .all, .ok found⟩ ∈ l) :
      ∃ a', receiver? webhookId found = some a' ∧ a'.userId = a.userId ∧ a'.listensOn? webhookId = some false :=
    hawaits.receiver (htold ⟨.listAutomations .all, .ok found⟩ hmem)
  cases hhandled with
  | unlisted e =>
    obtain ⟨c, hc⟩ := hown _ List.mem_cons_self ⟨e, rfl⟩
    cases hc
  | unknown absent =>
    obtain ⟨a', hfound, -⟩ := hreceiver List.mem_cons_self
    cases absent.symm.trans hfound
  | captured found listening =>
    obtain ⟨a', hfound, -, hquiet⟩ := hreceiver List.mem_cons_self
    cases found.symm.trans hfound
    cases listening.symm.trans hquiet
  | phoneless found quiet missing =>
    cases missing.symm.trans (phone?_eq_some.mpr (hgives i))
  | served found quiet given served =>
    obtain ⟨a', hfound, huser, -⟩ := hreceiver List.mem_cons_self
    cases found.symm.trans hfound
    cases given.symm.trans (phone?_eq_some.mpr (hgives i))
    rw [huser] at served
    obtain htoldRest := (List.forall_mem_cons.mp htold).2
    obtain ⟨c, created, hfires, hmade⟩ | hlate :=
      fate_of_served _ served htoldRest (List.forall_mem_cons.mp hown).2
    · refine .inl ⟨c, created, hfires, ?_⟩
      cases created with
      | true =>
        obtain ⟨e, he, hmade⟩ := hmade
        exact ⟨e, List.mem_cons_of_mem _ he, hmade⟩
      | false => exact hmade
    · exact .inr hlate

/-- One of the calls makes the contact, and each of the others finds it or comes too late. -/
theorem exists_first (hsome : ∃ i, Deed.own i t ≠ []) : ∃ first contact, made a.userId phone t = [contact] ∧
    (∃ e ∈ Deed.own first t, e.made? a.userId phone = some contact) ∧
    ∀ i, Deed.own i t ≠ [] → ∃ x, (handle settings limit webhookId (bodies i)).Yields (Deed.own i t) x ∧
      (i = first ∧ Fires settings limit a.userId phone connection (bodies i) contact true (Deed.own i t) x ∨
        Fires settings limit a.userId phone connection (bodies i) contact false (Deed.own i t) x ∨
        ComesLate a.userId phone (bodies i) (Deed.own i t) x) := by
  have hcalm := calm_of_interleaves hawaits h hphones
  have hfate : ∀ i, Deed.own i t ≠ [] → _ := fun i hi => exists_fate hawaits hgives h hfaults hphones hi
  -- one contact was made, in one of the deeds, and it was one of the calls that made it
  obtain ⟨contact, hmade⟩ : ∃ contact, made a.userId phone t = [contact] := by
    apply List.length_eq_one_iff.mp
    apply le_antisymm hcalm.held.one
    obtain ⟨i, hi⟩ := hsome
    apply List.length_pos_iff.mpr
    obtain ⟨x, -, ⟨c, created, -, hc⟩ | ⟨-, hnonempty⟩⟩ := hfate i hi
    · cases created with
      | true =>
        obtain ⟨e, he, hmade⟩ := hc
        exact List.ne_nil_of_mem (List.mem_filterMap.mpr ⟨_, Deed.mem_own.mp he, hmade⟩)
      | false =>
        obtain ⟨m, hm, -⟩ := List.mem_map.mp hc
        exact List.ne_nil_of_mem hm
    · exact hnonempty
  obtain ⟨⟨owner, e⟩, hd, hcreation⟩ := List.mem_filterMap.mp (hmade ▸ List.mem_singleton_self contact)
  have hunique : ∀ d ∈ t, ∀ c, d.exchange.made? a.userId phone = some c → d = ⟨owner, e⟩ ∧ c = contact := by
    intro d' hd' c hc
    have hsame : d' = ⟨owner, e⟩ := eq_of_filterMap_singleton hmade hd' hd (by simp [hc]) (by simp [hcreation])
    rw [hsame, hcreation] at hc
    exact ⟨hsame, (Option.some.inj hc).symm⟩
  obtain ⟨first, rfl⟩ : ∃ first, owner = some first := by
    cases owner with
    | some first => exact ⟨first, rfl⟩
    | none =>
      have hnone : e.made? a.userId phone = none := made?_of_isFiring (h.elsewhere _ hd rfl)
      cases hnone.symm.trans hcreation
  have hfirst : e ∈ Deed.own first t := Deed.mem_own.mpr hd
  refine ⟨first, contact, hmade, ⟨e, hfirst, hcreation⟩, fun i hi => ?_⟩
  obtain ⟨x, hyields, ⟨c, created, hfires, hc⟩ | ⟨hlate, -⟩⟩ := hfate i hi
  · cases created with
    | true =>
      obtain ⟨e', he', hmade'⟩ := hc
      obtain ⟨hsame, rfl⟩ := hunique _ (Deed.mem_own.mp he') c hmade'
      cases hsame
      exact ⟨x, hyields, .inl ⟨rfl, hfires⟩⟩
    | false =>
      have hc : c.id ∈ (made a.userId phone t).map (·.id) := hc
      rw [hmade] at hc
      exact ⟨x, hyields, .inr (.inl (hfires.of_id (List.mem_singleton.mp hc)))⟩
  · exact ⟨x, hyields, .inr (.inr hlate)⟩

/-- Of calls with the phone of a newcomer, one makes the contact and fires all its events, one that has looked it up in
vain. Whoever else has looked in vain comes too late and is turned away without any event; all others find the contact and
fire the webhook event for it. So no event is lost just when nobody else has looked in vain. -/
theorem handle_races (hsome : ∃ i, Deed.own i t ≠ []) : ∃ first contact,
    LooksInVain a.userId phone (Deed.own first t) ∧ made a.userId phone t = [contact] ∧
    (s'.db.holders a.userId phone).map (·.id) = [contact.id] ∧
    (∀ i, Deed.own i t ≠ [] → ∃ x, (handle settings limit webhookId (bodies i)).Yields (Deed.own i t) x ∧
      (LooksInVain a.userId phone (Deed.own i t) → i = first →
        Fires settings limit a.userId phone connection (bodies i) contact true (Deed.own i t) x) ∧
      (LooksInVain a.userId phone (Deed.own i t) → i ≠ first → ComesLate a.userId phone (bodies i) (Deed.own i t) x) ∧
      (¬ LooksInVain a.userId phone (Deed.own i t) →
        Fires settings limit a.userId phone connection (bodies i) contact false (Deed.own i t) x)) ∧
    ((∃ contact, LosesNone settings limit webhookId a.userId phone connection bodies t s' contact) ↔
      ∀ i, LooksInVain a.userId phone (Deed.own i t) → i = first) := by
  obtain ⟨first, contact, hmade, ⟨e, he, hcreation⟩, hcases⟩ := exists_first hawaits hgives h hfaults hphones hsome
  have hrows := (calm_of_interleaves hawaits h hphones).held.rows
  rw [hmade] at hrows
  have hmakes : ∃ x, (handle settings limit webhookId (bodies first)).Yields (Deed.own first t) x ∧
      Fires settings limit a.userId phone connection (bodies first) contact true (Deed.own first t) x := by
    obtain ⟨x, hyields, ⟨-, hfires⟩ | hfinds | hlate⟩ := hcases first (List.ne_nil_of_mem he)
    · exact ⟨x, hyields, hfires⟩
    · cases (hfinds.made?_eq_none e he).symm.trans hcreation
    · cases (hlate.made?_eq_none e he).symm.trans hcreation
  have hother {i : Nat} (hi : Deed.own i t ≠ []) (hne : i ≠ first) :
      ∃ x, (handle settings limit webhookId (bodies i)).Yields (Deed.own i t) x ∧
        (Fires settings limit a.userId phone connection (bodies i) contact false (Deed.own i t) x ∨
          ComesLate a.userId phone (bodies i) (Deed.own i t) x) := by
    obtain ⟨x, hyields, ⟨hfirst, -⟩ | hrest⟩ := hcases i hi
    · exact absurd hfirst hne
    · exact ⟨x, hyields, hrest⟩
  -- So the call that made the contact fires for a new one, and each other call finds the contact or comes late. The
  -- three ways exclude each other by what the lookup has shown.
  obtain ⟨x₀, hyields₀, hfires₀⟩ := hmakes
  refine ⟨first, contact, hfires₀.looksInVain_iff.mpr rfl, hmade, hrows, fun i hi => ?_, ?_, ?_⟩
  · by_cases hne : i = first
    · subst hne
      refine ⟨x₀, hyields₀, fun _ _ => hfires₀, fun _ hne => absurd rfl hne, fun hfound => ?_⟩
      exact absurd (hfires₀.looksInVain_iff.mpr rfl) hfound
    · obtain ⟨x, hyields, hfinds | hlate⟩ := hother hi hne
      · refine ⟨x, hyields, fun _ hfirst => absurd hfirst hne, fun hvain _ => ?_, fun _ => hfinds⟩
        cases hfinds.looksInVain_iff.mp hvain
      · exact ⟨x, hyields, fun _ hfirst => absurd hfirst hne, fun _ _ => hlate, fun hfound =>
          absurd hlate.looksInVain hfound⟩
  · intro hloses i hvain
    obtain ⟨contact', hloses⟩ := hloses
    by_contra hne
    obtain ⟨x, hyields, hfinds | hlate⟩ := hother (List.ne_nil_of_mem hvain) hne
    · cases hfinds.looksInVain_iff.mp hvain
    · obtain ⟨created, y, -, hfires⟩ := hloses.fires i (List.ne_nil_of_mem hvain)
      exact hlate.not_fires hfires
  · intro honly
    refine ⟨contact, hrows, fun i hi => ?_, first, ⟨List.ne_nil_of_mem he, x₀, hfires₀⟩, ?_⟩
    · by_cases hne : i = first
      · subst hne
        exact ⟨true, x₀, hyields₀, hfires₀⟩
      · obtain ⟨x, hyields, hfinds | hlate⟩ := hother hi hne
        · exact ⟨false, x, hyields, hfinds⟩
        · exact absurd (honly i hlate.looksInVain) hne
    · intro j hj
      obtain ⟨-, x, hfires⟩ := hj
      exact honly j (hfires.looksInVain_iff.mpr rfl)

end

end

def goesWell : Exchange → Bool
  | ⟨.listAutomations _, .ok _⟩ | ⟨.findContact .., .ok _⟩ | ⟨.listBoards _, .ok _⟩ | ⟨.createContact _, _⟩ => true
  | ⟨.firstConnection _, .ok _⟩ | ⟨.getContact _, .ok _⟩ | ⟨.mergeStats .., .ok _⟩ => true
  | _ => false

theorem fault_of_goesWell {e : Exchange} (h : goesWell e = true) (hfault : e.request.IsFault e.reply) :
    ∃ c, e.request = .createContact c := by
  unfold goesWell at h
  split at h
  · obtain ⟨_, hfault⟩ := hfault
    cases hfault
  · obtain ⟨_, hfault⟩ := hfault
    cases hfault
  · obtain ⟨_, hfault⟩ := hfault
    cases hfault
  · exact ⟨_, rfl⟩
  · obtain ⟨_, hfault⟩ := hfault
    cases hfault
  · obtain ⟨_, hfault⟩ := hfault
    cases hfault
  · obtain ⟨_, hfault⟩ := hfault
    cases hfault
  · cases h

theorem not_update_of_goesWell {e : Exchange} (h : goesWell e = true) (id : Int) (p : ContactPatch) :
    e.request ≠ .updateContact id p := by
  obtain ⟨r, x⟩ := e
  rintro rfl
  cases h

/-- The newcomer calls twice at once: both calls look up the phone, and then one of them is done before the other goes
on. -/
theorem exists_overtaken : ∃ automations a connection t s',
    Awaits (connected unconnected) "hook" "5581977776666" automations a connection ∧
    Interleaves .offline Request.IsFiring (fun _ => (handle Surroundings.offline.settings 8 "hook" newcomer).run)
      (connected unconnected) t s' ∧
    (∀ d ∈ t, goesWell d.exchange = true) ∧ ∃ x, ComesLate a.userId "5581977776666" newcomer (Deed.own 1 t) x := by
  have htrace : ((handle Surroundings.offline.settings 8 "hook" newcomer).run.trace (answer .offline)
      (connected unconnected)).map (fun y => (y.1.all goesWell, (y.2.2.db.listBoards default).toOption.isSome,
        y.2.2.db.phoneTaken (y.2.2.db.lastContactId + 1) (Uuid.text default) "5581977776666")) =
      some (true, true, true) := by
    decide +kernel
  obtain ⟨automations, a, connection, hlist, hfound, hown, hquiet, hfirst, -⟩ := exists_receiver
  obtain ⟨⟨l, x, s₁⟩, hl, hseen⟩ := Option.map_eq_some_iff.mp htrace
  simp only [Prod.mk.injEq] at hseen
  obtain ⟨hwell, hlisted, htaken⟩ := hseen
  obtain ⟨boards, hboards⟩ := Option.isSome_iff_exists.mp hlisted
  have hruns := runs_of_trace hl
  have hawaits : Awaits (connected unconnected) "hook" "5581977776666" automations a connection :=
    { ids := ⟨List.nodup_nil, List.forall_mem_nil _⟩
      listed := hlist
      found := hfound
      quiet := hquiet
      connected := hown ▸ hfirst
      absent := rfl }
  let before : List Exchange :=
    [⟨.listAutomations .all, .ok automations⟩, ⟨.findContact a.userId "5581977776666", .ok none⟩]
  let after : List Exchange := [⟨.listBoards a.userId, .ok boards⟩,
    ⟨.createContact (newContact a.userId "5581977776666" newcomer boards), .error (Database.phoneConflict "5581977776666")⟩]
  have hbefore : Answered (answer .offline) (connected unconnected) before (connected unconnected) :=
    answered_cons.mpr ⟨hlist, answered_cons.mpr ⟨rfl, .nil _⟩⟩
  have hafter : ∃ s', Answered (answer .offline) s₁ after s' := by
    refine ⟨_, answered_cons.mpr ⟨?_, answered_cons.mpr ⟨?_, .nil _⟩⟩⟩
    · rw [hown]
      exact eq_ok_of_toOption hboards
    · rw [← hown] at htaken
      have hrefused := Database.createContact_taken s₁.clock
        (c := newContact a.userId "5581977776666" newcomer boards) htaken
      simp only [answer, tick_fst, tick_db, hrefused]
      rfl
  obtain ⟨s', hafter⟩ := hafter
  have hserved : Served Surroundings.offline.settings 8 a.userId "5581977776666" newcomer _
      (.error (.repository (Database.phoneConflict "5581977776666"))) :=
    .unfound (.notMade boards (Database.phoneConflict "5581977776666"))
  have hsecond := handle_yields_iff.mpr (.served hfound (by simp [hquiet]) phone?_newcomer hserved)
  refine ⟨automations, a, connection, Deed.amid before l after, s', hawaits, .amid hbefore hruns hafter hsecond, ?_, ?_⟩
  · refine Deed.forall_mem_amid.mpr ⟨?_, List.all_eq_true.mp hwell, ?_⟩
    · exact List.forall_mem_cons.mpr ⟨rfl, List.forall_mem_singleton.mpr rfl⟩
    · exact List.forall_mem_cons.mpr ⟨rfl, List.forall_mem_singleton.mpr rfl⟩
  · rw [Deed.own_outer]
    exact ⟨_, .mk automations boards⟩

/-- A call with the phone of a newcomer can lose its event to another one, with no other fault. -/
theorem exists_lost_event : ∃ automations a connection t s',
    Awaits (connected unconnected) "hook" "5581977776666" automations a connection ∧
    Interleaves .offline Request.IsFiring (fun _ => (handle Surroundings.offline.settings 8 "hook" newcomer).run)
      (connected unconnected) t s' ∧
    (∀ d ∈ t, d.exchange.request.IsFault d.exchange.reply → ∃ c, d.exchange.request = .createContact c) ∧
    (∀ d ∈ t, ∀ id p, d.exchange.request ≠ .updateContact id p) ∧
    ¬ ∃ contact, LosesNone Surroundings.offline.settings 8 "hook" a.userId "5581977776666" connection
      (fun _ => newcomer) t s' contact := by
  obtain ⟨automations, a, connection, t, s', hawaits, h, hwell, x, hlate⟩ := exists_overtaken
  refine ⟨automations, a, connection, t, s', hawaits, h, ?_, ?_, ?_⟩
  · intro d hd hfault
    exact fault_of_goesWell (hwell d hd) hfault
  · intro d hd
    exact not_update_of_goesWell (hwell d hd)
  · intro hloses
    obtain ⟨contact, hloses⟩ := hloses
    obtain ⟨created, y, -, hfires⟩ := hloses.fires 1 (List.ne_nil_of_mem hlate.looksInVain)
    exact hlate.not_fires hfires

/-- The call that was overtaken comes too late, and it was another one that made the contact. -/
theorem handle_races_overtaken : ∃ (automations : List Automation) (a : Automation) (connection : Connection)
    (t : List Deed) (s' : Service) (first : Nat) (contact : Contact),
    Awaits (connected unconnected) "hook" "5581977776666" automations a connection ∧ first ≠ 1 ∧
    made a.userId "5581977776666" t = [contact] ∧
    (s'.db.holders a.userId "5581977776666").map (·.id) = [contact.id] ∧
    (∃ x, Fires Surroundings.offline.settings 8 a.userId "5581977776666" connection newcomer contact true
      (Deed.own first t) x) ∧
    ∃ y, ComesLate a.userId "5581977776666" newcomer (Deed.own 1 t) y := by
  obtain ⟨automations, a, connection, t, s', hawaits, h, hwell, y, hlate⟩ := exists_overtaken
  obtain ⟨first, contact, hvain, hmade, hrows, hcalls, -⟩ :=
    handle_races hawaits (fun _ => phone?_eq_some.mp phone?_newcomer) h
      (fun d hd => fault_of_goesWell (hwell d hd))
      (fun d hd id p hupdate => absurd hupdate (not_update_of_goesWell (hwell d hd) id p))
      ⟨1, List.ne_nil_of_mem hlate.looksInVain⟩
  obtain ⟨x, -, hfires, -⟩ := hcalls first (List.ne_nil_of_mem hvain)
  have hfirst := hfires hvain rfl
  refine ⟨automations, a, connection, t, s', first, contact, hawaits, ?_, hmade, hrows, ⟨x, hfirst⟩, y, hlate⟩
  rintro rfl
  exact hlate.not_fires hfirst

end Intake
end Outreach
