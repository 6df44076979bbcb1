import Mathlib
import Outreach.Proofs.Json.Reading
import Outreach.Proofs.Keyed
import Outreach.Proofs.Security.Signature
import Outreach.Proofs.Service.Boards
import Outreach.Web.Answer

/-! Who may make the service do something. A request that does not pass the check of its route is answered, and that is
all: nothing is asked of the database, the engine or the provider. -/
namespace Outreach.Web
open Keyed

namespace Handshake

def fieldNames : List String := ["hub.mode", "hub.verify_token", "hub.challenge"]

def part (h : Handshake) (name : String) : List String :=
  if name = "hub.mode" then h.mode.toList
  else if name = "hub.verify_token" then h.token.toList
  else if name = "hub.challenge" then h.challenge.toList
  else []

theorem length_part (h : Handshake) (name : String) : (h.part name).length ≤ 1 := by
  have hlength (o : Option String) : o.toList.length ≤ 1 := by cases o <;> simp
  unfold part
  split_ifs
  · exact hlength _
  · exact hlength _
  · exact hlength _
  · exact Nat.zero_le 1

/-- A field is passed over, or taken as a part that was missing, or there before. -/
theorem add?_cases (h : Handshake) (f : String × String) :
    f.1 ∉ fieldNames ∧ h.add? f = some h ∨
      f.1 ∈ fieldNames ∧ (h.part f.1).length = 1 ∧ h.add? f = none ∨
      f.1 ∈ fieldNames ∧ ∃ g, h.add? f = some g ∧ ∀ name, g.part name = h.part name ++ if f.1 = name then [f.2] else [] := by
  obtain ⟨k, v⟩ := f
  obtain ⟨mode, token, challenge⟩ := h
  by_cases hmode : k = "hub.mode"
  · subst hmode
    cases mode with
    | none =>
      refine .inr (.inr ⟨by simp [fieldNames], _, rfl, fun name => ?_⟩)
      by_cases hname : name = "hub.mode" <;> simp [part, hname, eq_comm]
    | some _ => exact .inr (.inl ⟨by simp [fieldNames], rfl, rfl⟩)
  by_cases htoken : k = "hub.verify_token"
  · subst htoken
    cases token with
    | none =>
      refine .inr (.inr ⟨by simp [fieldNames], _, rfl, fun name => ?_⟩)
      by_cases hname : name = "hub.verify_token" <;> simp [part, hname, eq_comm]
    | some _ => exact .inr (.inl ⟨by simp [fieldNames], rfl, rfl⟩)
  by_cases hchallenge : k = "hub.challenge"
  · subst hchallenge
    cases challenge with
    | none =>
      refine .inr (.inr ⟨by simp [fieldNames], _, rfl, fun name => ?_⟩)
      by_cases hname : name = "hub.challenge" <;> simp [part, hname, eq_comm]
    | some _ => exact .inr (.inl ⟨by simp [fieldNames], rfl, rfl⟩)
  · refine .inl ⟨by simp [fieldNames, hmode, htoken, hchallenge], ?_⟩
    simp only [add?]

/-- The parts are what the fields give, and it is a field that is given again which is in the way. What was read before
counts as given, too. -/
theorem ofFields_gives (h : Handshake) (fields : List (String × String)) :
    (∀ h', ofFields h fields = .ok h' → ∀ name ∈ fieldNames, h'.part name = h.part name ++ valuesOf name fields) ∧
      ∀ name, ofFields h fields = .error name → name ∈ fieldNames ∧ 1 < (h.part name ++ valuesOf name fields).length := by
  induction fields generalizing h with
  | nil =>
    constructor
    · intro h' hgives name _
      cases hgives
      exact (List.append_nil _).symm
    · intro name hgives
      cases hgives
  | cons f fields ih =>
    rw [ofFields]
    obtain ⟨hother, hadd⟩ | ⟨hfield, hpart, hadd⟩ | ⟨hfield, g, hadd, hg⟩ := h.add?_cases f
    · have hsame {name : String} (hname : name ∈ fieldNames) : valuesOf name (f :: fields) = valuesOf name fields := by
        rw [valuesOf_cons, if_neg fun heq : f.1 = name => hother (heq ▸ hname), List.nil_append]
      rw [hadd]
      refine ⟨fun h' hgives name hname => ?_, fun name hgives => ?_⟩
      · rw [hsame hname]
        exact (ih h).1 h' hgives name hname
      · obtain ⟨hname, hlong⟩ := (ih h).2 name hgives
        exact ⟨hname, (hsame hname).symm ▸ hlong⟩
    · rw [hadd]
      refine ⟨nofun, fun name hgives => ?_⟩
      cases hgives
      refine ⟨hfield, ?_⟩
      rw [valuesOf_cons, if_pos rfl, List.length_append, hpart, List.singleton_append, List.length_cons]
      omega
    · have hstep (name : String) : g.part name ++ valuesOf name fields = h.part name ++ valuesOf name (f :: fields) := by
        rw [hg, List.append_assoc, ← valuesOf_cons]
      rw [hadd]
      refine ⟨fun h' hgives name hname => ?_, fun name hgives => ?_⟩
      · rw [← hstep]
        exact (ih g).1 h' hgives name hname
      · rw [← hstep]
        exact (ih g).2 name hgives

end Handshake

def given (query name : String) : List String := valuesOf name (queryFields query)

def Repeats (query : String) : Prop := ∃ name ∈ Handshake.fieldNames, 1 < (given query name).length

theorem Handshake.ofQuery_cases (query : String) :
    (∃ h, ofQuery query = .ok h ∧ h.mode.toList = given query "hub.mode" ∧ h.token.toList = given query "hub.verify_token" ∧
      h.challenge.toList = given query "hub.challenge") ∧ ¬ Repeats query ∨
    ∃ name ∈ fieldNames, ofQuery query = .error name ∧ 1 < (given query name).length := by
  obtain ⟨hok, herror⟩ := ofFields_gives ⟨none, none, none⟩ (queryFields query)
  have hblank (name : String) : part ⟨none, none, none⟩ name ++ valuesOf name (queryFields query) = given query name := by
    unfold part
    split_ifs <;> rfl
  cases hgives : ofQuery query with
  | error name =>
    obtain ⟨hname, hlong⟩ := herror name hgives
    exact .inr ⟨name, hname, rfl, hblank name ▸ hlong⟩
  | ok h =>
    have hparts (name : String) (hname : name ∈ fieldNames) : h.part name = given query name :=
      (hok h hgives name hname).trans (hblank name)
    refine .inl ⟨⟨h, rfl, hparts "hub.mode" (by decide), hparts "hub.verify_token" (by decide),
      hparts "hub.challenge" (by decide)⟩, ?_⟩
    rintro ⟨name, hname, hlong⟩
    exact absurd (h.length_part name) (not_le.mpr (hparts name hname ▸ hlong))

section Subscribing
variable {c : ProviderConfig} {query challenge : String}

def Subscribes (c : ProviderConfig) (query challenge : String) : Prop :=
  ∃ token, c.verifyToken = some token ∧ given query "hub.mode" = ["subscribe"] ∧
    given query "hub.verify_token" = [token] ∧ given query "hub.challenge" = [challenge]

theorem Subscribes.not_repeats (h : Subscribes c query challenge) : ¬ Repeats query := by
  obtain ⟨token, -, hmode, htoken, hchallenge⟩ := h
  simp [Repeats, Handshake.fieldNames, hmode, htoken, hchallenge]

theorem Subscribes.unique {other : String} (h : Subscribes c query challenge) (hother : Subscribes c query other) :
    challenge = other := by
  obtain ⟨_, -, -, -, hchallenge⟩ := h
  obtain ⟨_, -, -, -, hgiven⟩ := hother
  exact List.singleton_injective (hchallenge.symm.trans hgiven)

theorem subscription_cases (c : ProviderConfig) (query : String) :
    (∃ challenge, Subscribes c query challenge ∧ subscription c query = .respond 200 (.text challenge)) ∨
      (¬ Repeats query ∧ (∀ challenge, ¬ Subscribes c query challenge) ∧ subscription c query = bare 403) ∨
      ∃ name ∈ Handshake.fieldNames, 1 < (given query name).length ∧
        subscription c query =
          .respond 400 (.text ("Failed to deserialize query string: duplicate field `" ++ name ++ "`")) := by
  unfold subscription
  obtain ⟨⟨h, hquery, hmode, htoken, hchallenge⟩, honce⟩ | ⟨name, hname, hquery, hlong⟩ := Handshake.ofQuery_cases query
  · have hpart {o : Option String} {v : String} : o.toList = [v] ↔ o = some v := by cases o <;> simp
    have hsubscribes {challenge : String} : Subscribes c query challenge ↔ ∃ token, c.verifyToken = some token ∧
        h.mode = some "subscribe" ∧ h.token = some token ∧ h.challenge = some challenge := by
      simp only [Subscribes, ← hmode, ← htoken, ← hchallenge, hpart]
    rw [hquery]
    dsimp only
    split
    · rename_i expected token challenge hexpected hmode htoken hchallenge
      split
      · rename_i hsame
        obtain rfl := Text.bytes_injective.mp (Signature.constantTimeEq_iff.mp hsame)
        exact .inl ⟨challenge, hsubscribes.mpr ⟨expected, hexpected, hmode, htoken, hchallenge⟩, rfl⟩
      · rename_i hother
        refine .inr (.inl ⟨honce, fun other hsubscribed => hother ?_, rfl⟩)
        obtain ⟨known, hknown, -, hgiven, -⟩ := hsubscribes.mp hsubscribed
        rw [Option.some.inj (hexpected.symm.trans hknown), Option.some.inj (htoken.symm.trans hgiven)]
        exact Signature.constantTimeEq_iff.mpr rfl
    · rename_i hlacking
      refine .inr (.inl ⟨honce, fun challenge hsubscribed => ?_, rfl⟩)
      obtain ⟨token, hknown, hmode, htoken, hchallenge⟩ := hsubscribes.mp hsubscribed
      exact hlacking token token challenge hknown hmode htoken hchallenge
  · exact .inr (.inr ⟨name, hname, hlong, by rw [hquery]⟩)

end Subscribing

section Checking
variable {c : Config} {p : ProviderConfig} {r : Request} {name value : String}

def Request.rawHeader? (r : Request) (name : String) : Option String :=
  (r.headers.find? fun h => Text.sameIgnoringCase h.1 name).map (·.2)

theorem Request.header?_eq_some :
    r.header? name = some value ↔ r.rawHeader? name = some value ∧ ∀ c ∈ value.toList, isVisible c = true := by
  rw [header?, Option.filter_eq_some_iff, List.all_eq_true]
  exact Iff.rfl

def MaySweep (c : Config) (r : Request) : Prop :=
  ∃ secret, c.cronSecret = some secret ∧ r.rawHeader? "authorization" = some ("Bearer " ++ secret) ∧
    ∀ c ∈ ("Bearer " ++ secret).toList, Request.isVisible c = true

theorem scheduledSweep_cases (c : Config) (r : Request) :
    MaySweep c r ∧ scheduledSweep c r = .sweep ∨
      ¬ MaySweep c r ∧ ∃ refusal, refusal.status = 401 ∧ scheduledSweep c r = .refuse refusal := by
  unfold scheduledSweep MaySweep
  cases c.cronSecret with
  | none => exact .inr ⟨by simp, .noCronSecret, rfl, rfl⟩
  | some secret =>
    have hsecret : (∃ s, some secret = some s ∧ r.rawHeader? "authorization" = some ("Bearer " ++ s) ∧
        ∀ c ∈ ("Bearer " ++ s).toList, Request.isVisible c = true) ↔
          Signature.verifyBearer secret (r.header? "authorization") = .ok () := by
      rw [Signature.verifyBearer_eq_ok, Request.header?_eq_some]
      exact ⟨fun h => by obtain ⟨s, hs, h⟩ := h; cases hs; exact h, fun h => ⟨secret, rfl, h⟩⟩
    rw [hsecret]
    cases hverify : Signature.verifyBearer secret (r.header? "authorization") with
    | error e => exact .inr ⟨nofun, .signature e, rfl, by simp only [hverify]⟩
    | ok => exact .inl ⟨rfl, by simp only [hverify]⟩

def Signed (p : ProviderConfig) (r : Request) : Prop :=
  ∀ secret, p.appSecret = some secret →
    Signature.verify (Text.bytes secret) r.body.bytes (r.header? "x-hub-signature-256") = .ok ()

theorem delivery_of_signed (hshort : r.isOverlong = false) (h : Signed p r) :
    (∃ n, Decode.ofBytes Notification.decode r.body.bytes = .ok n ∧ delivery p r = .deliver n) ∨
      (∀ n, Decode.ofBytes Notification.decode r.body.bytes ≠ .ok n) ∧ delivery p r = .respond 200 (.data received) := by
  unfold delivery
  cases hread : Decode.ofBytes Notification.decode r.body.bytes with
  | error e =>
    refine .inr ⟨nofun, ?_⟩
    cases hsecret : p.appSecret with
    | none => simp [hshort]
    | some secret => simp [hshort, h secret hsecret]
  | ok n =>
    refine .inl ⟨n, rfl, ?_⟩
    cases hsecret : p.appSecret with
    | none => simp [hshort]
    | some secret => simp [hshort, h secret hsecret]

theorem delivery_of_unsigned (hshort : r.isOverlong = false) (h : ¬ Signed p r) :
    ∃ e : SignatureError, delivery p r = .refuse (.signature e) := by
  simp only [Signed, not_forall] at h
  obtain ⟨secret, hsecret, hrejected⟩ := h
  cases hverify : Signature.verify (Text.bytes secret) r.body.bytes (r.header? "x-hub-signature-256") with
  | error e => exact ⟨e, by simp [delivery, hshort, hsecret, hverify]⟩
  | ok => exact absurd hverify hrejected

end Checking

section Dismissing
variable {around : Surroundings} {r : Request} {status : Nat}

/-- The request is answered with the status, and that is all: it asks for nothing, so that nothing is sent, and what is
stored stays as it is. -/
structure Dismisses (around : Surroundings) (r : Request) (status : Nat) : Prop where
  asks_nothing : ∃ content, (duty around.config r).program around.settings around.limit = pure (status, content)
  keeps : ∀ s : Service, s.forwarded = [] →
    ∃ response s', s.respond around r = some (response, s') ∧ response.status = status ∧ s'.db = s.db ∧ s'.forwarded = []

theorem status_response {t : Trace} {method : Method} (content : Content) :
    ((content.response status t).sentTo method).status = status := by
  have hsent (response : Response) : (response.sentTo method).status = response.status := by
    unfold Response.sentTo
    split <;> rfl
  rw [hsent]
  cases content <;> rfl

/-- The status is that of the reply to what the duty has performed, and nothing else is done. -/
theorem respond_iff {s s' : Service} : (∃ response, s.respond around r = some (response, s') ∧ response.status = status) ↔
    ∃ content t, s.tick.2.freshId.2.perform around ((duty around.config r).program around.settings around.limit) =
      some ((status, content), t) ∧ s' = t.tick.2 := by
  simp only [Service.respond]
  constructor
  · rintro ⟨response, hrespond, rfl⟩
    obtain ⟨⟨⟨status, content⟩, t⟩, hperform, hgiven⟩ := Option.bind_eq_some_iff.mp hrespond
    cases hgiven
    exact ⟨content, t, by rw [hperform, status_response], rfl⟩
  · rintro ⟨content, t, hperform, rfl⟩
    rw [hperform]
    exact ⟨_, rfl, status_response content⟩

theorem dismisses_of_program (hlimit : 0 < around.limit)
    (h : ∃ content, (duty around.config r).program around.settings around.limit = pure (status, content)) :
    Dismisses around r status := by
  obtain ⟨content, hprogram⟩ := h
  refine ⟨⟨content, hprogram⟩, fun s hquiet => ?_⟩
  have hquiet' : s.tick.2.freshId.2.forwarded = [] := by
    rw [← hquiet]
    simp only [Service.tick, Service.freshId]
  have hperform : s.tick.2.freshId.2.perform around ((duty around.config r).program around.settings around.limit) =
      some ((status, content), s.tick.2.freshId.2) := by
    rw [hprogram]
    exact Service.perform_of_quiet hlimit rfl hquiet'
  obtain ⟨response, hrespond, hstatus⟩ := respond_iff.mpr ⟨content, _, hperform, rfl⟩
  refine ⟨response, _, hrespond, hstatus, ?_, (Service.tick_forwarded _).trans hquiet'⟩
  simp only [Service.tick, Service.freshId]

theorem dismisses_of_respond (hlimit : 0 < around.limit) {content : Content}
    (h : duty around.config r = .respond status content) : Dismisses around r status :=
  dismisses_of_program hlimit ⟨content, by rw [h]; rfl⟩

theorem dismisses_of_refuse (hlimit : 0 < around.limit) {refusal : Refusal}
    (h : duty around.config r = .refuse refusal) : Dismisses around r refusal.status :=
  dismisses_of_program hlimit ⟨_, by rw [h]; rfl⟩

/-- The request is answered with what a sweep has counted or failed with. The sweep is all that is done, and leaves behind
what is stored. -/
structure Sweeps (around : Surroundings) (r : Request) : Prop where
  asks_sweep : (duty around.config r).program around.settings around.limit =
    (sweep around.settings around.limit).run >>= fun x => pure (replyOf .sweep SweepSummary.encode x)
  leaves : ∀ (s : Service) response s', s.respond around r = some (response, s') →
    ∃ x t, s.tick.2.freshId.2.perform around (sweep around.settings around.limit).run = some (x, t) ∧
      response.status = (replyOf .sweep SweepSummary.encode x).1 ∧ s'.db = t.db

theorem perform_map {α β : Type} (p : Program α) (f : α → β) (s : Service) :
    s.perform around (p >>= fun a => pure (f a)) = (s.perform around p).map fun x => (f x.1, x.2) := by
  simp only [Service.perform, Program.runSettled, Program.run_bind, Option.bind_eq_bind, Option.bind_assoc,
    Option.map_bind]
  refine congrArg _ (funext fun x => ?_)
  rw [Function.comp_apply, Option.map_bind]
  rfl

theorem sweeps_of_sweep (h : duty around.config r = .sweep) : Sweeps around r := by
  have hprogram : (duty around.config r).program around.settings around.limit =
      (sweep around.settings around.limit).run >>= fun x => pure (replyOf .sweep SweepSummary.encode x) := by
    rw [h]
    rfl
  refine ⟨hprogram, fun s response s' hrespond => ?_⟩
  obtain ⟨content, t, hperform, rfl⟩ := respond_iff.mp ⟨response, hrespond, rfl⟩
  rw [hprogram, perform_map] at hperform
  obtain ⟨⟨x, t⟩, hsweep, hgiven⟩ := Option.map_eq_some_iff.mp hperform
  obtain ⟨hreply, rfl⟩ := Prod.mk.inj hgiven
  exact ⟨x, t, hsweep, (congrArg Prod.fst hreply).symm, by simp only [Service.tick]⟩

theorem not_sweeps_of_refuse {refusal : Refusal} (h : duty around.config r = .refuse refusal) : ¬ Sweeps around r := by
  rintro ⟨hprogram, -⟩
  rw [h] at hprogram
  cases hprogram

end Dismissing

section Routing
variable {c : Config} {r : Request}

def sweepPath : String := "/api/v1/cron/process-automations"

def providerPath : String := "/webhooks/meta"

theorem duty_sweep (hmethod : r.method = .post) (hpath : r.path = sweepPath) : duty c r = scheduledSweep c r := by
  have hroute : Route.ofPath? sweepPath = some .sweep := by decide
  simp only [duty, hmethod, hpath, hroute]

theorem duty_delivery (hmethod : r.method = .post) (hpath : r.path = providerPath) : duty c r = delivery c.provider r := by
  have hroute : Route.ofPath? providerPath = some .provider := by decide
  simp only [duty, hmethod, hpath, hroute]

/-- The bodies that a webhook takes in are the texts of values, of any values whatever. -/
theorem duty_intake {path : List Char} {id : String} {body : Json} (hmethod : r.method = .post)
    (hpath : Route.ofPath? r.path = some (.webhook path))
    (hid : Text.bytes id = Text.percentDecoded (Text.bytes (String.ofList path))) (hshort : r.isOverlong = false) :
    duty c r = .intake id body ↔ ∃ text, Text.bytes text = r.body.bytes ∧ Json.parse? text = some body := by
  have hduty : duty c r = webhook path r := by simp only [duty, hmethod, hpath]
  rw [hduty, webhook, Text.ofBytes?_eq_some.mpr hid, ← Json.parseBytes?_eq_some]
  cases Json.parseBytes? r.body.bytes <;> simp [hshort]

theorem duty_subscription (hmethod : r.method = .get) (hpath : r.path = providerPath) :
    duty c r = subscription c.provider r.query := by
  have hroute : Route.ofPath? providerPath = some .provider := by decide
  simp only [duty, hmethod, hpath, hroute]

end Routing

section Access
variable {around : Surroundings} {r : Request}

theorem sweep_checked (hlimit : 0 < around.limit) (hmethod : r.method = .post) (hpath : r.path = sweepPath) :
    (duty around.config r = .sweep ↔ MaySweep around.config r) ∧ (Sweeps around r ↔ MaySweep around.config r) ∧
      (¬ MaySweep around.config r → Dismisses around r 401) := by
  have hduty := duty_sweep (c := around.config) hmethod hpath
  obtain ⟨hmay, hsweep⟩ | ⟨hmay, refusal, hstatus, hrefuse⟩ := scheduledSweep_cases around.config r
  · have hsweeps := hduty.trans hsweep
    exact ⟨iff_of_true hsweeps hmay, iff_of_true (sweeps_of_sweep hsweeps) hmay, fun h => absurd hmay h⟩
  · have hrefused := hduty.trans hrefuse
    refine ⟨iff_of_false (by rw [hrefused]; exact nofun) hmay, iff_of_false (not_sweeps_of_refuse hrefused) hmay,
      fun _ => hstatus ▸ dismisses_of_refuse hlimit hrefused⟩

/-- Messages are handled when the delivery is signed, or need not be. -/
theorem delivery_checked (hlimit : 0 < around.limit) (hmethod : r.method = .post) (hpath : r.path = providerPath) :
    (∀ n, duty around.config r = .deliver n ↔ r.isOverlong = false ∧ Signed around.config.provider r ∧
        Decode.ofBytes Notification.decode r.body.bytes = .ok n) ∧
      (r.isOverlong = false → ¬ Signed around.config.provider r → Dismisses around r 401) ∧
      (r.isOverlong = false → Signed around.config.provider r →
        (∀ n, Decode.ofBytes Notification.decode r.body.bytes ≠ .ok n) → Dismisses around r 200) ∧
      (r.isOverlong = true → Dismisses around r 413) := by
  have hduty := duty_delivery (c := around.config) hmethod hpath
  cases hlong : r.isOverlong with
  | true =>
    have hoverlong : duty around.config r = overlong := hduty.trans (by simp [delivery, hlong])
    refine ⟨fun n => iff_of_false (by rw [hoverlong]; exact nofun) (by simp), nofun, nofun, fun _ => ?_⟩
    exact dismisses_of_respond hlimit hoverlong
  | false =>
    by_cases hsigned : Signed around.config.provider r
    · obtain ⟨n, hread, hdeliver⟩ | ⟨hunread, hrespond⟩ := delivery_of_signed hlong hsigned
      · refine ⟨fun m => ?_, fun _ h => absurd hsigned h, fun _ _ h => absurd hread (h n), nofun⟩
        rw [hduty, hdeliver, hread, Duty.deliver.injEq, Except.ok.injEq]
        exact ⟨fun h => ⟨rfl, hsigned, h⟩, fun h => h.2.2⟩
      · refine ⟨fun n => ?_, fun _ h => absurd hsigned h, fun _ _ _ => ?_, nofun⟩
        · exact iff_of_false (by rw [hduty, hrespond]; exact nofun) fun h => hunread n h.2.2
        · exact dismisses_of_respond hlimit (hduty.trans hrespond)
    · obtain ⟨e, hrefuse⟩ := delivery_of_unsigned hlong hsigned
      have hrefused := hduty.trans hrefuse
      refine ⟨fun n => iff_of_false (by rw [hrefused]; exact nofun) fun h => hsigned h.2.1, fun _ _ => ?_,
        fun _ h => absurd h hsigned, nofun⟩
      exact dismisses_of_refuse hlimit hrefused

/-- The challenge goes back to whoever knows the token. -/
theorem subscription_checked (hlimit : 0 < around.limit) (hmethod : r.method = .get) (hpath : r.path = providerPath) :
    (∀ challenge, duty around.config r = .respond 200 (.text challenge) ↔
        Subscribes around.config.provider r.query challenge) ∧
      (∀ challenge, Subscribes around.config.provider r.query challenge → Dismisses around r 200) ∧
      (¬ Repeats r.query → (∀ challenge, ¬ Subscribes around.config.provider r.query challenge) → Dismisses around r 403) ∧
      (Repeats r.query → Dismisses around r 400) := by
  have hduty := duty_subscription (c := around.config) hmethod hpath
  obtain ⟨challenge, hsubscribes, hrespond⟩ | ⟨honce, hnone, hbare⟩ | ⟨name, hname, hlong, hrespond⟩ :=
    subscription_cases around.config.provider r.query
  · have hanswered := hduty.trans hrespond
    refine ⟨fun other => ?_, fun _ _ => dismisses_of_respond hlimit hanswered,
      fun _ h => absurd hsubscribes (h challenge), fun h => absurd h hsubscribes.not_repeats⟩
    rw [hanswered, Duty.respond.injEq, Content.text.injEq, eq_self_iff_true, true_and]
    exact ⟨fun h => h ▸ hsubscribes, hsubscribes.unique⟩
  · have hanswered := hduty.trans hbare
    exact ⟨fun other => iff_of_false (by rw [hanswered]; exact nofun) (hnone other), fun other h => absurd h (hnone other),
      fun _ _ => dismisses_of_respond hlimit hanswered, fun h => absurd h honce⟩
  · have hanswered := hduty.trans hrespond
    have hrepeats : Repeats r.query := ⟨name, hname, hlong⟩
    have hnone (challenge : String) : ¬ Subscribes around.config.provider r.query challenge :=
      fun h => h.not_repeats hrepeats
    exact ⟨fun other => iff_of_false (by rw [hanswered]; exact nofun) (hnone other), fun other h => absurd h (hnone other),
      fun h => absurd hrepeats h, fun _ => dismisses_of_respond hlimit hanswered⟩

end Access

/-- A sweep needs the secret, a delivery the signature when there is a secret for it, and a subscription the token; and what
is refused does nothing. A query that repeats itself and a body that is too long are refused for that. -/
theorem checks_come_first (around : Surroundings) (hlimit : 0 < around.limit) (r : Request) :
    (∀ a b, Signature.constantTimeEq a b = true ↔ a = b) ∧
      (r.method = .post → r.path = sweepPath →
        (duty around.config r = .sweep ↔ MaySweep around.config r) ∧
          (Sweeps around r ↔ MaySweep around.config r) ∧
          (¬ MaySweep around.config r → Dismisses around r 401)) ∧
      (r.method = .post → r.path = providerPath →
        (∀ n, duty around.config r = .deliver n ↔ r.isOverlong = false ∧ Signed around.config.provider r ∧
            Decode.ofBytes Notification.decode r.body.bytes = .ok n) ∧
          (r.isOverlong = false → ¬ Signed around.config.provider r → Dismisses around r 401) ∧
          (r.isOverlong = false → Signed around.config.provider r →
            (∀ n, Decode.ofBytes Notification.decode r.body.bytes ≠ .ok n) → Dismisses around r 200) ∧
          (r.isOverlong = true → Dismisses around r 413)) ∧
      (r.method = .get → r.path = providerPath →
        (∀ challenge, duty around.config r = .respond 200 (.text challenge) ↔
            Subscribes around.config.provider r.query challenge) ∧
          (∀ challenge, Subscribes around.config.provider r.query challenge → Dismisses around r 200) ∧
          (¬ Repeats r.query → (∀ challenge, ¬ Subscribes around.config.provider r.query challenge) →
            Dismisses around r 403) ∧
          (Repeats r.query → Dismisses around r 400)) := by
  refine ⟨fun a b => ?_, ?_, ?_, ?_⟩
  · exact Signature.constantTimeEq_iff
  · exact sweep_checked hlimit
  · exact delivery_checked hlimit
  · exact subscription_checked hlimit

def guarded : Surroundings :=
  { Surroundings.offline with config := { Config.standard with
    cronSecret := some "cron-s3cret"
    provider := { ProviderConfig.standard with verifyToken := some "verify-me", appSecret := some "app-secret" } } }

def subscribing : Request :=
  ⟨.get, providerPath, "hub.mode=subscribe&hub.verify_token=verify-me&hub.challenge=1158201444", [], ""⟩

theorem checks_come_first_subscribing :
    0 < guarded.limit ∧ Subscribes guarded.config.provider subscribing.query "1158201444" ∧
      duty guarded.config subscribing = .respond 200 (.text "1158201444") ∧ Dismisses guarded subscribing 200 := by
  have hsubscribes : Subscribes guarded.config.provider subscribing.query "1158201444" := by
    refine ⟨"verify-me", rfl, ?_, ?_, ?_⟩ <;> decide +kernel
  obtain ⟨-, -, -, hget⟩ := checks_come_first guarded (by decide) subscribing
  obtain ⟨hchallenge, hkeeps, -, -⟩ := hget rfl rfl
  exact ⟨by decide, hsubscribes, (hchallenge _).mpr hsubscribes, hkeeps _ hsubscribes⟩

def doubled : Request :=
  ⟨.get, providerPath, "hub.mode=subscribe&hub.verify_token=verify-me&hub.challenge=1&hub.challenge=2", [], ""⟩

def lengthy : Request := ⟨.post, providerPath, "", [], ⟨List.replicate (bodyLimit + 1) 0⟩⟩

theorem Dismisses.unique {around : Surroundings} {r : Request} {status other : Nat} (h : Dismisses around r status)
    (hother : Dismisses around r other) : status = other := by
  obtain ⟨content, hprogram⟩ := h.asks_nothing
  obtain ⟨_, hgiven⟩ := hother.asks_nothing
  cases hprogram.symm.trans hgiven
  rfl

theorem lengthy_isOverlong : lengthy.isOverlong = true := by
  simp only [Request.isOverlong, lengthy, List.length_replicate, decide_eq_true_eq]
  exact Nat.lt_succ_self _

/-- Neither is refused in the way of those that do not pass the check. -/
theorem refused_otherwise :
    (∀ challenge, ¬ Subscribes guarded.config.provider doubled.query challenge) ∧ ¬ Dismisses guarded doubled 403 ∧
      ¬ Signed guarded.config.provider lengthy ∧ ¬ Dismisses guarded lengthy 401 := by
  have hlimit : 0 < guarded.limit := by decide
  have hrepeats : Repeats doubled.query := ⟨"hub.challenge", by decide, by decide +kernel⟩
  have hunsigned : ¬ Signed guarded.config.provider lengthy := fun h => by cases h "app-secret" rfl
  refine ⟨fun challenge h => h.not_repeats hrepeats, fun h => ?_, hunsigned, fun h => ?_⟩
  · exact absurd (h.unique ((subscription_checked hlimit rfl rfl).2.2.2 hrepeats)) (by decide)
  · exact absurd (h.unique ((delivery_checked hlimit rfl rfl).2.2.2 lengthy_isOverlong)) (by decide)

end Outreach.Web
