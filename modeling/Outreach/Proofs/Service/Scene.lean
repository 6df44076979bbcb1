import Mathlib
import Outreach.Engine.Inbox
import Outreach.Engine.Intake
import Outreach.Engine.Sweep
import Outreach.Proofs.Engine.Exchange
import Outreach.Proofs.Service.Answers

/-! A service and the work under way in it. The same moves, one after the other, lead from a scene to the same scene, so
that scenes can be followed side by side. What all programs keep to, and what the store keeps under what they ask, is kept
through any moves. -/
namespace Outreach
open Service

inductive Occasion where
  | event (event : Event) (contactId : Int) (scope : Scope)
  | call (webhookId : String) (body : Json)
  | notification (n : Notification)
  | sweep

inductive Upshot where
  | fired (x : Except FireError DispatchReport)
  | served (x : Except IntakeError IntakeOutcome)
  | processed (s : InboxSummary)
  | swept (x : Except SweepError SweepSummary)
  | forwarded

section
variable (around : Surroundings)

def Occasion.program : Occasion → Program Upshot
  | .event e contactId scope => do return .fired (← (fire around.settings around.limit e contactId scope).run)
  | .call webhookId body => do return .served (← (Intake.handle around.settings around.limit webhookId body).run)
  | .notification n => do return .processed (← Inbox.process around.settings around.limit n)
  | .sweep => do return .swept (← (Outreach.sweep around.settings around.limit).run)

def ForwardedRun.program (run : ForwardedRun) : Program Upshot := do
  run.execute around.settings around.limit
  return .forwarded

end

inductive Move where
  | begin (o : Occasion)
  /-- The forwarded run begins that waits at that place. -/
  | forward (i : Nat)
  /-- What program `i` asks for is answered, at that time, by that network and chance. -/
  | answer (i : Nat) (clock : Instant) (network : Network) (seed : Nat)
  /-- What program `i` asks for fails without effect, if it can fail in that way. -/
  | fail (i : Nat) (fault : (r : Request) → Option { x : r.Reply // r.IsFault x })

def Move.Suits (around : Surroundings) (era : Instant → Prop) (c : Terms) : Move → Prop
  | .begin o => (o.program around).Meets c fun _ => True
  | .answer _ clock _ _ => era clock
  | _ => True

theorem Move.suits_of_ne_begin {around : Surroundings} {c : Terms} {moves : List Move} (h : ∀ o, .begin o ∉ moves) :
    ∀ m ∈ moves, m.Suits around (fun _ => True) c := by
  intro m hm
  cases m with
  | begin o => exact absurd hm (h o)
  | _ => exact trivial

structure Scene where
  service : Service
  running : List (Program Upshot)
  log : List Exchange

namespace Scene

def of (around : Surroundings) (service : Service) (o : Occasion) : Scene := ⟨service, [o.program around], []⟩

section
variable (around : Surroundings)

def move (s : Scene) : Move → Scene
  | .begin o => { s with running := s.running ++ [o.program around] }
  | .forward i =>
    match s.service.forwarded[i]? with
    | none => s
    | some run =>
      { s with
        service := { s.service with forwarded := s.service.forwarded.eraseIdx i }
        running := s.running ++ [run.program around] }
  | .answer i clock network seed =>
    match s.running[i]? with
    | some (.ask r next) =>
      let (x, service) := answer { around with network := network } r { s.service with clock := clock, seed := seed }
      ⟨service, s.running.set i (next x), s.log ++ [⟨r, x⟩]⟩
    | _ => s
  | .fail i fault =>
    match s.running[i]? with
    | some (.ask r next) =>
      match fault r with
      | some x => ⟨s.service, s.running.set i (next x), s.log ++ [⟨r, x⟩]⟩
      | none => s
    | _ => s

def play (s : Scene) (moves : List Move) : Scene := moves.foldl (move around) s

inductive Step (s : Scene) : Move → Scene → Prop where
  | stay (m : Move) : Step s m s
  | begin (o : Occasion) : Step s (.begin o) { s with running := s.running ++ [o.program around] }
  | forward {i : Nat} {run : ForwardedRun} (waits : s.service.forwarded[i]? = some run) : Step s (.forward i)
    { s with
      service := { s.service with forwarded := s.service.forwarded.eraseIdx i }
      running := s.running ++ [run.program around] }
  | answered {i : Nat} {clock : Instant} {network : Network} {seed : Nat} {r : Request} {next : r.Reply → Program Upshot}
    {x : r.Reply} {service : Service} (asks : s.running[i]? = some (.ask r next))
    (answers : AnswersAt around clock r s.service x service) :
    Step s (.answer i clock network seed) ⟨service, s.running.set i (next x), s.log ++ [⟨r, x⟩]⟩
  | failed {i : Nat} {fault : (r : Request) → Option { x : r.Reply // r.IsFault x }} {r : Request}
    {next : r.Reply → Program Upshot} {x : r.Reply} (asks : s.running[i]? = some (.ask r next)) (fails : r.IsFault x) :
    Step s (.fail i fault) ⟨s.service, s.running.set i (next x), s.log ++ [⟨r, x⟩]⟩

variable {around}

theorem move_answer {s : Scene} {i : Nat} {r : Request} {next : r.Reply → Program Upshot}
    (h : s.running[i]? = some (.ask r next)) (clock : Instant) (network : Network) (seed : Nat) {x : r.Reply}
    {service : Service}
    (hanswer : Service.answer { around with network := network } r { s.service with clock := clock, seed := seed } =
      (x, service)) :
    s.move around (.answer i clock network seed) = ⟨service, s.running.set i (next x), s.log ++ [⟨r, x⟩]⟩ := by
  rw [move, h]
  dsimp only
  rw [hanswer]

theorem step_move (s : Scene) (m : Move) : Step around s m (s.move around m) := by
  cases m with
  | begin o => exact .begin o
  | forward i =>
    rw [move]
    split
    · exact .stay _
    · exact .forward ‹_›
  | answer i clock network seed =>
    rw [move]
    split
    · exact .answered ‹_› ⟨network, seed, rfl⟩
    · exact .stay _
  | fail i fault =>
    rw [move]
    split
    · split
      · rename_i x _
        exact .failed ‹_› x.2
      · exact .stay _
    · exact .stay _

theorem Step.log_grows {s s' : Scene} {m : Move} (h : Step around s m s') : s.log <+: s'.log := by
  cases h with
  | stay | begin | forward => exact List.prefix_rfl
  | answered | failed => exact List.prefix_append _ _

theorem log_grows_play (s : Scene) (moves : List Move) : s.log <+: (s.play around moves).log := by
  induction moves generalizing s with
  | nil => exact List.prefix_rfl
  | cons m moves ih => exact (step_move s m).log_grows.trans (ih _)

end

/-- Terms `c` for all that runs, and what the store keeps under them: once `told` is all that is ever asked and answered,
forwarded runs keep to the terms, answers are such as the terms have them, and with each of them `I` is kept. -/
structure Regime (around : Surroundings) (era : Instant → Prop) (told : List Exchange) (c : Terms)
    (I : List Exchange → Database → Prop) : Prop where
  forwards : ∀ run, c.asks (.spawn run) → c.answers (.spawn run) () → (run.program around).Meets c fun _ => True
  answered : ∀ {l : List Exchange} {clock : Instant} {r : Request} {x : r.Reply} {a b : Service}, era clock → c.asks r →
    ⟨r, x⟩ ∈ told → AnswersAt around clock r a x b → I l a.db → c.answers r x ∧ I (l ++ [⟨r, x⟩]) b.db
  failed : ∀ {l : List Exchange} {r : Request} {x : r.Reply} {db : Database}, c.asks r → ⟨r, x⟩ ∈ told → r.IsFault x →
    I l db → c.answers r x ∧ I (l ++ [⟨r, x⟩]) db

variable {around : Surroundings} {era : Instant → Prop} {told : List Exchange} {c : Terms}
  {I : List Exchange → Database → Prop} {s s' : Scene}

structure Keeps (c : Terms) (I : List Exchange → Database → Prop) (s : Scene) : Prop where
  running : ∀ p ∈ s.running, p.Meets c fun _ => True
  forwarded : ∀ run ∈ s.service.forwarded, c.asks (.spawn run) ∧ c.answers (.spawn run) ()
  told : ∀ e ∈ s.log, c.asks e.request ∧ c.answers e.request e.reply
  stored : I s.log s.service.db

theorem Keeps.step (h : Regime around era told c I) {m : Move} (hm : m.Suits around era c) (hs : s.Keeps c I)
    (hstep : Step around s m s') (htold : s'.log ⊆ told) : s'.Keeps c I := by
  have hset {i : Nat} {p : Program Upshot} (hp : p.Meets c fun _ => True) :
      ∀ q ∈ s.running.set i p, q.Meets c fun _ => True := by
    intro q hq
    obtain hq | rfl := List.mem_or_eq_of_mem_set hq
    · exact hs.running q hq
    · exact hp
  have hlog {e : Exchange} (he : c.asks e.request ∧ c.answers e.request e.reply) :
      ∀ e' ∈ s.log ++ [e], c.asks e'.request ∧ c.answers e'.request e'.reply :=
    List.forall_mem_append.mpr ⟨hs.told, List.forall_mem_singleton.mpr he⟩
  cases hstep with
  | stay => exact hs
  | begin o =>
    refine ⟨?_, hs.forwarded, hs.told, hs.stored⟩
    exact List.forall_mem_append.mpr ⟨hs.running, List.forall_mem_singleton.mpr hm⟩
  | forward waits =>
    obtain ⟨hasks, hanswered⟩ := hs.forwarded _ (List.mem_of_getElem? waits)
    refine ⟨?_, fun run hmem => hs.forwarded run (List.mem_of_mem_eraseIdx hmem), hs.told, hs.stored⟩
    exact List.forall_mem_append.mpr ⟨hs.running, List.forall_mem_singleton.mpr (h.forwards _ hasks hanswered)⟩
  | answered asks answers =>
    obtain ⟨hasks, hnext⟩ := hs.running _ (List.mem_of_getElem? asks)
    obtain ⟨hx, hstored⟩ := h.answered hm hasks (htold (List.mem_append_right _ List.mem_cons_self)) answers hs.stored
    refine ⟨hset (hnext _ hx), ?_, hlog ⟨hasks, hx⟩, hstored⟩
    obtain hsame | ⟨run, rfl, hnew⟩ := answers.forwarded
    · exact hsame ▸ hs.forwarded
    · rw [hnew]
      exact List.forall_mem_append.mpr ⟨hs.forwarded, List.forall_mem_singleton.mpr ⟨hasks, hx⟩⟩
  | failed asks fails =>
    obtain ⟨hasks, hnext⟩ := hs.running _ (List.mem_of_getElem? asks)
    obtain ⟨hx, hstored⟩ := h.failed hasks (htold (List.mem_append_right _ List.mem_cons_self)) fails hs.stored
    exact ⟨hset (hnext _ hx), hs.forwarded, hlog ⟨hasks, hx⟩, hstored⟩

theorem Keeps.play (h : Regime around era told c I) {moves : List Move} (hmoves : ∀ m ∈ moves, m.Suits around era c)
    (hs : s.Keeps c I) (htold : (s.play around moves).log ⊆ told) : (s.play around moves).Keeps c I := by
  induction moves generalizing s with
  | nil => exact hs
  | cons m moves ih =>
    obtain ⟨hm, hmoves⟩ := List.forall_mem_cons.mp hmoves
    have hlog : (s.move around m).log <+: ((s.move around m).play around moves).log := log_grows_play _ moves
    exact ih hmoves (hs.step h hm (step_move s m) fun e he => htold (hlog.subset he)) htold

theorem keeps_of {service : Service} {o : Occasion} (hwaits : service.forwarded = []) (ho : (o.program around).Meets c fun _ => True)
    (hI : I [] service.db) : (Scene.of around service o).Keeps c I where
  running := List.forall_mem_singleton.mpr ho
  forwarded := by simp [of, hwaits]
  told := List.forall_mem_nil _
  stored := hI

end Scene
end Outreach
