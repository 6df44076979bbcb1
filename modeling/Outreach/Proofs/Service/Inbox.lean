import Outreach.Engine.Inbox
import Outreach.Proofs.Service.Contacts
import Outreach.Proofs.Service.Dispatch

/-! What becomes of the messages of a notification. Each is looked up and fired by itself, in a store that those before it
have left as they found it unless their events were fired. -/
namespace Outreach
open Program Service

namespace Database
variable {db db' : Database} {phone : String} {contact : Contact}

structure ContactsInOrder (db : Database) : Prop where
  ascending : (db.contacts.map (·.id)).Pairwise (· < ·)
  given : ∀ r ∈ db.contacts, r.id ≤ db.lastContactId

theorem ContactsInOrder.of_empty (h : db.contacts = []) : db.ContactsInOrder := by
  constructor <;> simp [h]

theorem ContactsInOrder.of_same (h : db.ContactsInOrder) (hsame : db.SameContacts db') : db'.ContactsInOrder where
  ascending := by
    rw [hsame.contacts]
    exact h.ascending
  given := by
    rw [hsame.contacts, hsame.lastContactId]
    exact h.given

theorem ContactsInOrder.createContact (h : db.ContactsInOrder) {now : Instant} {c : NewContact}
    (hmade : db.createContact now c = .ok (contact, db')) : db'.ContactsInOrder := by
  have hid : contact.id = db.lastContactId + 1 := (createContact_fresh hmade).1
  obtain ⟨-, rfl⟩ := createContact_eq hmade
  have hnew : (ContactRow.ofContact contact).id = contact.id := rfl
  constructor
  · rw [List.map_append, List.map_singleton, List.pairwise_append]
    refine ⟨h.ascending, List.pairwise_singleton _ _, fun id hold new hlast => ?_⟩
    obtain ⟨r, hr, rfl⟩ := List.mem_map.mp hold
    have hgiven := h.given r hr
    rw [List.mem_singleton.mp hlast]
    omega
  · refine List.forall_mem_append.mpr ⟨fun r hr => ?_, List.forall_mem_singleton.mpr hid.le⟩
    have hgiven := h.given r hr
    push_cast
    omega

theorem ContactsInOrder.updateContact (h : db.ContactsInOrder) {id : Int} {p : ContactPatch}
    (hpatched : db.updateContact id p = .ok db') : db'.ContactsInOrder := by
  obtain ⟨r, old, -, -, ⟨-, rfl⟩ | ⟨-, -, rfl⟩⟩ := updateContact_eq_ok hpatched
  · exact h
  · have hkept (row : ContactRow) :
        (if row.id == id then row.withColumnsOf (p.written old) else row).id = row.id := by split <;> rfl
    have hids : ((db.contacts.map fun row => if row.id == id then row.withColumnsOf (p.written old) else row).map (·.id)) =
        db.contacts.map (·.id) := by
      rw [List.map_map]
      exact List.map_congr_left fun row _ => hkept row
    constructor
    · exact hids.symm ▸ h.ascending
    · intro row hrow
      obtain ⟨row, hold, rfl⟩ := List.mem_map.mp hrow
      exact (hkept row).le.trans (h.given row hold)

def IsOldest (db : Database) (phone : String) (contact : Contact) : Prop :=
  ∃ row ∈ db.contacts, row.phone = phone ∧ row.read = .ok contact ∧
    ∀ other ∈ db.contacts, other.phone = phone → row.id ≤ other.id

theorem ContactsInOrder.oldest (h : db.ContactsInOrder) (hfound : db.findContactAnywhere phone = .ok (some contact)) :
    db.IsOldest phone contact := by
  rw [findContactAnywhere] at hfound
  cases hrow : db.contacts.find? (·.phone == phone) with
  | none =>
    rw [hrow] at hfound
    cases hfound
  | some row =>
    rw [hrow] at hfound
    have hread : row.read = .ok contact := by
      obtain ⟨c, hread, hc⟩ := bind_eq_ok.mp hfound
      cases hc
      exact hread
    obtain ⟨hphone, before, after, hlist, hbefore⟩ := List.find?_eq_some_iff_append.mp hrow
    refine ⟨row, List.mem_of_find?_eq_some hrow, beq_iff_eq.mp hphone, hread, fun other hother hsame => ?_⟩
    rw [hlist] at hother
    have hordered := h.ascending
    rw [hlist, List.map_append, List.map_cons, List.pairwise_append, List.pairwise_cons] at hordered
    obtain hother | hother := List.mem_append.mp hother
    · exact absurd hsame (by simpa using hbefore other hother)
    · obtain rfl | hother := List.mem_cons.mp hother
      · exact le_rfl
      · exact (hordered.2.1.1 _ (List.mem_map_of_mem hother)).le

theorem nobody_of_findContactAnywhere (h : db.findContactAnywhere phone = .ok none) :
    ∀ row ∈ db.contacts, row.phone ≠ phone := by
  rw [findContactAnywhere] at h
  cases hrow : db.contacts.find? (·.phone == phone) with
  | none => simpa using List.find?_eq_none.mp hrow
  | some row =>
    rw [hrow] at h
    obtain ⟨c, hread, hc⟩ := bind_eq_ok.mp h
    cases hc

end Database

theorem Service.Answers.contactsInOrder {around : Surroundings} {r : Request} {s s' : Service} {x : r.Reply}
    (h : Answers around r s x s') (horder : s.db.ContactsInOrder) : s'.db.ContactsInOrder := by
  by_cases hleaves : r.LeavesContacts
  · obtain ⟨clock, network, seed, h⟩ := h
    have hsame := @answer_sameContacts { around with network := network } { s with clock := clock, seed := seed } r hleaves
    rw [h] at hsame
    exact horder.of_same hsame
  · cases r with
    | createContact c =>
      obtain ⟨now, contact, -, hmade⟩ | ⟨-, hdb, -⟩ := h.createContact
      · exact horder.createContact hmade
      · exact hdb ▸ horder
    | updateContact id p =>
      obtain hpatched | hdb := h.updateContact
      · exact horder.updateContact hpatched
      · exact hdb ▸ horder
    | _ => exact absurd trivial hleaves

namespace Notification

def delivered (n : Notification) : List (NotificationChange × InboundMessage) :=
  n.entry.flatMap fun e => e.changes.flatMap fun c => c.messages.map (c, ·)

inductive Tells (n : Notification) : NotificationChange × InboundMessage → InboundText → Prop where
  | text {c : NotificationChange} {m : InboundMessage} {body : String} (account : n.object = "whatsapp_business_account")
    (field : c.field = "messages") (kind : m.kind = "text") (bodied : m.text = some body) : Tells n (c, m) ⟨m.id, m.sender, body⟩

def told? (n : Notification) (d : NotificationChange × InboundMessage) : Option InboundText :=
  if n.object = "whatsapp_business_account" ∧ d.1.field = "messages" then InboundMessage.inboundText? d.2 else none

theorem told?_eq_some {n : Notification} {d : NotificationChange × InboundMessage} {text : InboundText} :
    n.told? d = some text ↔ n.Tells d text := by
  rw [told?, Option.ite_none_right_eq_some, InboundMessage.inboundText?, Option.ite_none_right_eq_some,
    Option.map_eq_some_iff]
  constructor
  · rintro ⟨⟨account, field⟩, kind, body, hbody, rfl⟩
    exact .text account field kind hbody
  · rintro ⟨account, field, kind, hbody⟩
    exact ⟨⟨account, field⟩, kind, _, hbody, rfl⟩

theorem textMessages_eq (n : Notification) : n.textMessages = n.delivered.filterMap n.told? := by
  have hchange (c : NotificationChange) : (c.messages.map (c, ·)).filterMap n.told? =
      if n.object = "whatsapp_business_account" ∧ c.field = "messages" then
        c.messages.filterMap InboundMessage.inboundText? else [] := by
    rw [List.filterMap_map]
    split
    · rename_i hboth
      exact List.filterMap_congr fun m _ => if_pos hboth
    · rename_i hnot
      exact List.filterMap_eq_nil_iff.mpr fun m _ => if_neg hnot
  simp only [textMessages, delivered, List.filterMap_flatMap, hchange]
  split <;> rename_i haccount <;> simp [haccount]

end Notification

namespace Inbox

inductive Fate where
  | dispatched
  | unknown
  | failed
  deriving DecidableEq

def Fate.note (s : InboxSummary) : Fate → InboxSummary
  | .dispatched => { s with dispatched := s.dispatched + 1 }
  | .unknown => { s with unknownSenders := s.unknownSenders + 1 }
  | .failed => { s with failed := s.failed + 1 }

def tally (fates : List Fate) : InboxSummary :=
  ⟨fates.length, fates.count .dispatched, fates.count .unknown, fates.count .failed⟩

theorem tally_adds_up (fates : List Fate) :
    (tally fates).messages = (tally fates).dispatched + (tally fates).unknownSenders + (tally fates).failed := by
  induction fates with
  | nil => rfl
  | cons fate rest ih =>
    simp only [tally, List.length_cons, List.count_cons] at ih ⊢
    cases fate <;> simp <;> omega

theorem foldl_note (fates : List Fate) (s : InboxSummary) : fates.foldl Fate.note s =
    ⟨s.messages, s.dispatched + (tally fates).dispatched, s.unknownSenders + (tally fates).unknownSenders,
      s.failed + (tally fates).failed⟩ := by
  induction fates generalizing s with
  | nil => rfl
  | cons fate rest ih =>
    rw [List.foldl_cons, ih]
    cases fate <;> simp [Fate.note, tally] <;> omega

section
variable {σ : Type} (view : σ → Service) (h : Handler σ) (settings : EngineSettings) (limit : Nat)

def event (text : InboundText) (contact : Contact) : Attempt FireError DispatchReport :=
  fire settings limit (.contextMessage text.body) contact.id (.user contact.userId none)

/-- A message is handled, from one state to another. A sender that cannot be looked up or is unknown leaves the service as
it is, and so does an event that fails; otherwise the event of the message was fired for the oldest contact with that
phone. -/
inductive Handled : σ → InboundText → List Exchange → Fate → σ → Prop where
  | unlooked {t t' : σ} {text : InboundText} {e : RepositoryError}
    (looked : Answered h t [⟨.findContactAnywhere text.sender, .error e⟩] t') (same : (view t).Same (view t')) :
    Handled t text [⟨.findContactAnywhere text.sender, .error e⟩] .failed t'
  | unknown {t t' : σ} {text : InboundText} (looked : Answered h t [⟨.findContactAnywhere text.sender, .ok none⟩] t')
    (nobody : ∀ row ∈ (view t).db.contacts, row.phone ≠ text.sender) (same : (view t).Same (view t')) :
    Handled t text [⟨.findContactAnywhere text.sender, .ok none⟩] .unknown t'
  | unfired {t t₁ t' : σ} {text : InboundText} {contact : Contact} {l : List Exchange} {e : FireError}
    (looked : Answered h t [⟨.findContactAnywhere text.sender, .ok (some contact)⟩] t₁)
    (oldest : (view t).db.IsOldest text.sender contact)
    (fires : Runs h (event settings limit text contact).run t₁ l (.error e) t') (same : (view t).Same (view t')) :
    Handled t text (⟨.findContactAnywhere text.sender, .ok (some contact)⟩ :: l) .failed t'
  | fired {t t₁ t' : σ} {text : InboundText} {contact : Contact} {l : List Exchange} {report : DispatchReport}
    (looked : Answered h t [⟨.findContactAnywhere text.sender, .ok (some contact)⟩] t₁)
    (oldest : (view t).db.IsOldest text.sender contact) (same : (view t).Same (view t₁))
    (fires : Runs h (event settings limit text contact).run t₁ l (.ok report) t') :
    Handled t text (⟨.findContactAnywhere text.sender, .ok (some contact)⟩ :: l) .dispatched t'

inductive HandledAll : σ → List InboundText → List Exchange → List Fate → σ → Prop where
  | nil (t : σ) : HandledAll t [] [] [] t
  | cons {t t₁ t' : σ} {text : InboundText} {rest : List InboundText} {l ls : List Exchange} {fate : Fate}
    {fates : List Fate} (first : Handled view h settings limit t text l fate t₁)
    (others : HandledAll t₁ rest ls fates t') : HandledAll t (text :: rest) (l ++ ls) (fate :: fates) t'

end

section
variable {σ : Type} {around : Surroundings} {view : σ → Service} {h : Handler σ} {settings : EngineSettings} {limit : Nat}
  {t t' : σ} {text : InboundText} {l : List Exchange}

/-- Both parts are run, the second from where the first has come to. -/
theorem runs_bind {α β : Type} {p : Program α} {f : α → Program β} {b : β} : Runs h (p >>= f) t l b t' ↔
    ∃ a l₁ l₂ t₁, l = l₁ ++ l₂ ∧ Runs h p t l₁ a t₁ ∧ Runs h (f a) t₁ l₂ b t' := by
  constructor
  · rintro ⟨hyields, hanswered⟩
    obtain ⟨a, l₁, l₂, rfl, hp, hf⟩ := yields_bind.mp hyields
    obtain ⟨t₁, h₁, h₂⟩ := answered_append.mp hanswered
    exact ⟨a, l₁, l₂, t₁, rfl, ⟨hp, h₁⟩, ⟨hf, h₂⟩⟩
  · rintro ⟨a, l₁, l₂, t₁, rfl, ⟨hp, h₁⟩, ⟨hf, h₂⟩⟩
    exact ⟨yields_bind.mpr ⟨a, l₁, l₂, rfl, hp, hf⟩, answered_append.mpr ⟨t₁, h₁, h₂⟩⟩

theorem run_bind_eq_none {α β : Type} {p : Program α} {f : α → Program β} : (p >>= f).run h t = none ↔
    p.run h t = none ∨ ∃ a l t₁, Runs h p t l a t₁ ∧ (f a).run h t₁ = none := by
  rw [Program.run_bind]
  cases hp : p.run h t with
  | none => simp
  | some x =>
    rw [Option.bind_some]
    constructor
    · intro hf
      obtain ⟨l, hruns⟩ := run_eq_some_iff.mp hp
      exact .inr ⟨_, l, _, hruns, hf⟩
    · rintro (hnone | ⟨a, l, t₁, hruns, hf⟩)
      · cases hnone
      · cases hp.symm.trans (run_eq_some_iff.mpr ⟨l, hruns⟩)
        exact hf

theorem runs_pure {α : Type} {a b : α} : Runs h (pure a) t l b t' ↔ l = [] ∧ b = a ∧ t' = t := by
  constructor
  · rintro ⟨⟨rfl, rfl⟩, hnil⟩
    cases hnil
    exact ⟨rfl, rfl, rfl⟩
  · rintro ⟨rfl, rfl, rfl⟩
    exact ⟨⟨rfl, rfl⟩, .nil _⟩

/-- A sender is looked up; the answer is the store's unless it is an error. -/
theorem looked (hserves : Serves around view h) {phone : String} {x : Except RepositoryError (Option Contact)}
    (hlooked : Answered h t [⟨.findContactAnywhere phone, x⟩] t') :
    (view t).Same (view t') ∧ (x = (view t).db.findContactAnywhere phone ∨ ∃ e, x = .error e) := by
  obtain ⟨rfl, hnil⟩ := answered_cons.mp hlooked
  cases hnil
  obtain ⟨clock, network, seed, hanswers⟩ | ⟨hfault, hsame⟩ := hserves (.findContactAnywhere phone) t
  · obtain ⟨hreply, hstate⟩ := Prod.mk.inj hanswers
    exact ⟨hstate ▸ ⟨rfl, rfl⟩, .inl hreply.symm⟩
  · exact ⟨hsame.symm ▸ .refl _, .inr hfault⟩

theorem same_of_unfired (hserves : Serves around view h) {contact : Contact} {e : FireError}
    (hruns : Runs h (event settings limit text contact).run t l (.error e) t') : (view t).Same (view t') := by
  have hfired := fire_yields_iff.mp hruns.yields
  generalize hx : (Except.error e : Except FireError DispatchReport) = x at hfired
  cases hfired with
  | failed loads => exact (hserves.lookups hruns.answered loads.lookups).1
  | skipped loads => cases hx
  | ran loads runs => cases hx

theorem HandledAll.length {texts : List InboundText} {fates : List Fate}
    (hall : HandledAll view h settings limit t texts l fates t') : texts.length = fates.length := by
  induction hall with
  | nil => rfl
  | cons first others ih => rw [List.length_cons, List.length_cons, ih]

theorem handle_runs_iff (hserves : Serves around view h) (horder : (view t).db.ContactsInOrder) {s s' : InboxSummary} :
    Runs h (handle settings limit text s) t l s' t' ↔
      ∃ fate, Handled view h settings limit t text l fate t' ∧ s' = fate.note s := by
  unfold handle
  rw [runs_bind]
  constructor
  · rintro ⟨x, l₁, l₂, t₁, rfl, ⟨hasked, hlooked⟩, hrest⟩
    obtain rfl := yields_request.mp hasked
    obtain ⟨hsame, hreply⟩ := looked hserves hlooked
    cases x with
    | error e =>
      obtain ⟨rfl, rfl, rfl⟩ := runs_pure.mp hrest
      exact ⟨.failed, .unlooked hlooked hsame, rfl⟩
    | ok found =>
      have hfound : (view t).db.findContactAnywhere text.sender = .ok found := eq_ok_of_served hreply
      cases found with
      | none =>
        obtain ⟨rfl, rfl, rfl⟩ := runs_pure.mp hrest
        exact ⟨.unknown, .unknown hlooked (Database.nobody_of_findContactAnywhere hfound) hsame, rfl⟩
      | some contact =>
        obtain ⟨y, l₁, l₂, t₂, rfl, hfires, hrest⟩ := runs_bind.mp hrest
        have holdest := horder.oldest hfound
        cases y with
        | error e =>
          obtain ⟨rfl, rfl, rfl⟩ := runs_pure.mp hrest
          rw [List.append_nil]
          exact ⟨.failed, .unfired hlooked holdest hfires (hsame.trans (same_of_unfired hserves hfires)), rfl⟩
        | ok report =>
          obtain ⟨rfl, rfl, rfl⟩ := runs_pure.mp hrest
          rw [List.append_nil]
          exact ⟨.dispatched, .fired hlooked holdest hsame hfires, rfl⟩
  · rintro ⟨fate, hhandled, rfl⟩
    cases hhandled with
    | unlooked hlooked same =>
      exact ⟨_, _, [], t', (List.append_nil _).symm, ⟨yields_request.mpr rfl, hlooked⟩, runs_pure.mpr ⟨rfl, rfl, rfl⟩⟩
    | unknown hlooked nobody same =>
      exact ⟨_, _, [], t', (List.append_nil _).symm, ⟨yields_request.mpr rfl, hlooked⟩, runs_pure.mpr ⟨rfl, rfl, rfl⟩⟩
    | unfired hlooked oldest fires same =>
      refine ⟨_, [_], _, _, rfl, ⟨yields_request.mpr rfl, hlooked⟩, runs_bind.mpr ?_⟩
      exact ⟨_, _, [], t', (List.append_nil _).symm, fires, runs_pure.mpr ⟨rfl, rfl, rfl⟩⟩
    | fired hlooked oldest same fires =>
      refine ⟨_, [_], _, _, rfl, ⟨yields_request.mpr rfl, hlooked⟩, runs_bind.mpr ?_⟩
      exact ⟨_, _, [], t', (List.append_nil _).symm, fires, runs_pure.mpr ⟨rfl, rfl, rfl⟩⟩

theorem order_kept (hserves : Serves around view h) (hanswered : Answered h t l t')
    (horder : (view t).db.ContactsInOrder) : (view t').db.ContactsInOrder := by
  induction hanswered with
  | nil t => exact horder
  | @cons r t t' l rest ih =>
    obtain hanswers | ⟨-, hsame⟩ := hserves r t
    · exact ih (hanswers.contactsInOrder horder)
    · exact ih (hsame.symm ▸ horder)

theorem handleEach_runs_iff (hserves : Serves around view h) (horder : (view t).db.ContactsInOrder)
    {texts : List InboundText} {s s' : InboxSummary} : Runs h (handleEach settings limit s texts) t l s' t' ↔
      ∃ fates, HandledAll view h settings limit t texts l fates t' ∧ s' = fates.foldl Fate.note s := by
  induction texts generalizing t l s with
  | nil =>
    rw [handleEach, runs_pure]
    constructor
    · rintro ⟨rfl, rfl, rfl⟩
      exact ⟨[], .nil _, rfl⟩
    · rintro ⟨fates, hall, rfl⟩
      cases hall
      exact ⟨rfl, rfl, rfl⟩
  | cons text rest ih =>
    rw [handleEach, runs_bind]
    constructor
    · rintro ⟨s₁, l₁, l₂, t₁, rfl, hfirst, hrest⟩
      obtain ⟨fate, hhandled, rfl⟩ := (handle_runs_iff hserves horder).mp hfirst
      obtain ⟨fates, hall, rfl⟩ := (ih (order_kept hserves hfirst.answered horder)).mp hrest
      exact ⟨fate :: fates, .cons hhandled hall, rfl⟩
    · rintro ⟨fates, hall, rfl⟩
      cases hall with
      | cons first others =>
        have hfirst := (handle_runs_iff (s := s) hserves horder).mpr ⟨_, first, rfl⟩
        exact ⟨_, _, _, _, rfl, hfirst, (ih (order_kept hserves hfirst.answered horder)).mpr ⟨_, others, rfl⟩⟩

def Stuck (h : Handler σ) (settings : EngineSettings) (limit : Nat) (t : σ) (text : InboundText) : Prop :=
  ∃ contact t₁, Answered h t [⟨.findContactAnywhere text.sender, .ok (some contact)⟩] t₁ ∧
    (event settings limit text contact).run.run h t₁ = none

theorem handle_eq_none_iff {s : InboxSummary} :
    (handle settings limit text s).run h t = none ↔ Stuck h settings limit t text := by
  unfold handle
  rw [run_bind_eq_none]
  constructor
  · rintro (hnone | ⟨x, l, t₁, ⟨hasked, hlooked⟩, hrest⟩)
    · cases hnone
    · obtain rfl := yields_request.mp hasked
      obtain e | _ | contact := x
      · cases hrest
      · cases hrest
      · obtain hevent | ⟨y, l, t₂, -, hrest⟩ := run_bind_eq_none.mp hrest
        · exact ⟨contact, t₁, hlooked, hevent⟩
        · cases y <;> cases hrest
  · rintro ⟨contact, t₁, hlooked, hevent⟩
    exact .inr ⟨_, _, t₁, ⟨yields_request.mpr rfl, hlooked⟩, run_bind_eq_none.mpr (.inl hevent)⟩

/-- It does not come to its end just when the event of some message does not. -/
theorem handleEach_eq_none_iff (hserves : Serves around view h) (horder : (view t).db.ContactsInOrder)
    {texts : List InboundText} {s : InboxSummary} : (handleEach settings limit s texts).run h t = none ↔
      ∃ before text after l fates t₁, texts = before ++ text :: after ∧
        HandledAll view h settings limit t before l fates t₁ ∧ Stuck h settings limit t₁ text := by
  induction texts generalizing t s with
  | nil => simp [handleEach, pure, Program.run]
  | cons text rest ih =>
    rw [handleEach, run_bind_eq_none, handle_eq_none_iff]
    constructor
    · rintro (hstuck | ⟨s₁, l, t₁, hfirst, hrest⟩)
      · exact ⟨[], text, rest, [], [], t, rfl, .nil t, hstuck⟩
      · obtain ⟨fate, hhandled, -⟩ := (handle_runs_iff hserves horder).mp hfirst
        obtain ⟨before, text', after, ls, fates, t₂, rfl, hall, hstuck⟩ :=
          (ih (order_kept hserves hfirst.answered horder)).mp hrest
        exact ⟨text :: before, text', after, _, _, t₂, rfl, .cons hhandled hall, hstuck⟩
    · rintro ⟨before, text', after, l, fates, t₁, htexts, hall, hstuck⟩
      cases hall with
      | nil =>
        cases htexts
        exact .inl hstuck
      | cons first others =>
        cases htexts
        have hfirst := (handle_runs_iff (s := s) hserves horder).mpr ⟨_, first, rfl⟩
        have hkept := order_kept hserves hfirst.answered horder
        exact .inr ⟨_, _, _, hfirst, (ih hkept).mpr ⟨_, _, _, _, _, _, rfl, others, hstuck⟩⟩

/-- A notification is handled message by message: the text messages with a body among the messages of a business account, in
the order of delivery. Each is handled once, in the state that those before it have left, and is counted by what became of
it alone; the whole comes to its end unless an event does not. -/
theorem process_handles (hserves : Serves around view h) (horder : (view t).db.ContactsInOrder)
    (settings : EngineSettings) (limit : Nat) (n : Notification) :
    (∃ told : _ → Option InboundText, (∀ d text, told d = some text ↔ n.Tells d text) ∧
      n.textMessages = n.delivered.filterMap told) ∧
    (∀ l s t', Runs h (process settings limit n) t l s t' ↔ ∃ fates,
      HandledAll view h settings limit t n.textMessages l fates t' ∧ s = tally fates ∧
        s.messages = s.dispatched + s.unknownSenders + s.failed) ∧
    ((process settings limit n).run h t = none ↔ ∃ before text after l fates t₁,
      n.textMessages = before ++ text :: after ∧ HandledAll view h settings limit t before l fates t₁ ∧
        Stuck h settings limit t₁ text) := by
  refine ⟨⟨n.told?, fun _ _ => Notification.told?_eq_some, n.textMessages_eq⟩, fun l s t' => ?_,
    handleEach_eq_none_iff hserves horder⟩
  rw [process, handleEach_runs_iff hserves horder]
  refine exists_congr fun fates => and_congr_right fun hall => ?_
  rw [foldl_note, hall.length]
  simp only [Nat.zero_add]
  exact ⟨fun hs => hs ▸ ⟨rfl, tally_adds_up fates⟩, And.left⟩

end

def mixed : Notification :=
  ⟨"whatsapp_business_account", [⟨"waba-1", [⟨"messages",
    [⟨"wamid.1", "5581999900001", "text", some "Qual o preço?"⟩, ⟨"wamid.2", "5511000000000", "text", some "oi"⟩,
      ⟨"wamid.3", "5511000000001", "text", some "oi"⟩, ⟨"wamid.4", "5581999900001", "image", none⟩]⟩]⟩]⟩

def unsteady : Handler Service
  | .findContactAnywhere phone, s =>
    if phone = "5511000000001" then (.error .connection, s) else answer .offline (.findContactAnywhere phone) s
  | r, s => answer .offline r s

theorem serves_unsteady : Serves .offline id unsteady := by
  intro r s
  cases r with
  | findContactAnywhere phone =>
    by_cases hphone : phone = "5511000000001"
    · refine .inr ?_
      simp [unsteady, hphone, Request.IsFault]
    · refine .inl ?_
      simp only [unsteady, if_neg hphone]
      exact answers_answer .offline _ s
  | _ => exact .inl (answers_answer .offline _ s)

/-- Each of the three text messages has a fate of its own. -/
theorem process_handles_mixed : greeted.db.ContactsInOrder ∧ ∃ l fates s,
    HandledAll id unsteady Surroundings.offline.settings 8 greeted mixed.textMessages l fates s ∧
    tally fates = ⟨3, 1, 1, 1⟩ := by
  have horder : greeted.db.ContactsInOrder := ⟨by simp [greeted, holding, Service.new], by decide⟩
  have hseen : ((process Surroundings.offline.settings 8 mixed).run unsteady greeted).map Prod.fst = some ⟨3, 1, 1, 1⟩ := by
    decide +kernel
  obtain ⟨⟨summary, s⟩, hrun, rfl⟩ := Option.map_eq_some_iff.mp hseen
  obtain ⟨l, hruns⟩ := run_eq_some_iff.mp hrun
  obtain ⟨-, hhandles, -⟩ := process_handles serves_unsteady horder Surroundings.offline.settings 8 mixed
  obtain ⟨fates, hall, hsummary, -⟩ := (hhandles l _ s).mp hruns
  exact ⟨horder, l, fates, s, hall, hsummary.symm⟩

end Inbox
end Outreach
