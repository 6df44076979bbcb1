import Outreach.Config.Basic
import Outreach.Database.Basic
import Outreach.Engine.Settle
import Outreach.Provider

/-! A running service: programs asked of its database, its clock and the servers beyond. -/
namespace Outreach

structure Surroundings where
  config : Config
  network : Network
  /-- Walks and queues longer than this are taken to be endless. -/
  limit : Nat

structure Service where
  db : Database
  clock : Instant
  identities : Nat
  forwarded : List ForwardedRun
  seed : Nat

namespace Surroundings

def settings (s : Surroundings) : EngineSettings := s.config.engine.settings

def provider (s : Surroundings) : Provider := .ofConfig s.config.provider

end Surroundings

namespace Service

def version : String := "0.1.0"

def new (db : Database) (clock : Instant) (seed : Nat) : Service := ⟨db, clock, 0, [], seed⟩

/-- Reads the clock, which never shows one time twice. -/
def tick (s : Service) : Instant × Service :=
  let n := s.clock.nanos + 1000
  (s.clock, { s with clock := if n < 1000000000 then ⟨s.clock.seconds, n⟩
    else ⟨s.clock.seconds + 1, n - 1000000000⟩ })

def freshId (s : Service) : Uuid × Service :=
  (.numbered (s.identities + 1), { s with identities := s.identities + 1 })

def draw (n : Nat) (s : Service) : Nat × Service :=
  let seed := (s.seed * 6364136223846793005 + 1442695040888963407) % Nat.pow 2 64
  (seed / Nat.pow 2 32 % n, { s with seed := seed })

def storing {α : Type} (s : Service) : Except RepositoryError (α × Database) → Except RepositoryError α × Service
  | .ok (a, db) => (.ok a, { s with db := db })
  | .error e => (.error e, s)

def writing (s : Service) (r : Except RepositoryError Database) : Except RepositoryError Unit × Service :=
  s.storing (r.map fun db => ((), db))

def keeping {α : Type} (s : Service) (r : α × Database) : Except RepositoryError α × Service :=
  (.ok r.1, { s with db := r.2 })

def outcall {ε α : Type} (s : Service) (r : Except ε α) : Except (Outcall ε) α × Service :=
  (r.mapError .failed, s)

variable (around : Surroundings)

def delivered (s : Service) (c : HttpCall) : Except (Outcall GatewayError) Unit × Service :=
  s.outcall ((Provider.deliver around.network c).map fun _ => ())

def answer : Program.Handler Service
  | .createAutomation a, s => s.writing (s.db.createAutomation a)
  | .getAutomation id, s => (s.db.automation? id, s)
  | .listAutomations audience, s => (s.db.listAutomations audience, s)
  | .updateAutomation a, s => s.writing (s.db.updateAutomation a)
  | .setStatus id status, s => s.keeping (s.db.setStatus id status)
  | .mergeStats id delta, s => s.writing (s.db.mergeStats id delta)
  | .deleteAutomation id, s => s.keeping (s.db.deleteAutomation id)
  | .getContact id, s => (s.db.contact? id, s)
  | .findContact user phone, s => (s.db.findContact user phone, s)
  | .findContactAnywhere phone, s => (s.db.findContactAnywhere phone, s)
  | .createContact c, s => let (now, s) := s.tick; s.storing (s.db.createContact now c)
  | .updateContact id p, s => s.writing (s.db.updateContact id p)
  | .insertTask t, s => let (now, s) := s.tick; s.storing (s.db.insertTask now t)
  | .dueTasks now, s => (s.db.dueTasks now, s)
  | .claimTask id, s => s.keeping (s.db.claimTask id)
  | .updateTask id status error, s => s.writing (s.db.updateTask id status error)
  | .listBoards user, s => (s.db.listBoards user, s)
  | .allStages user, s => (s.db.allStages user, s)
  | .saveBoard b, s => (.ok (), { s with db := s.db.saveBoard b })
  | .getConnection id, s => (s.db.connection? id, s)
  | .firstConnection user, s => (s.db.firstConnection user, s)
  | .listConnections user, s => (s.db.listConnections user, s)
  | .createConnection c, s =>
    let (now, s) := s.tick
    let (id, s) := s.freshId
    s.keeping (s.db.createConnection id now c)
  | .sendText _ c phone body, s => s.delivered around (around.provider.textCall c phone body)
  | .sendTemplate _ c phone m, s => s.delivered around (around.provider.templateCall c phone m)
  | .sendFlow _ c phone m, s => s.delivered around (around.provider.flowCall c phone m)
  | .listTemplates _ c, s => s.outcall (around.provider.templates around.network c)
  | .sendHttp _ call, s => s.outcall (call.send around.network)
  | .now, s => s.tick
  | .pick n, s => s.draw n
  | .freshToken, s => let (id, s) := s.freshId; (id.text, s)
  | .freshIdentity, s =>
    let (now, s) := s.tick
    let (id, s) := s.freshId
    ((id, now), s)
  | .spawn r, s => ((), { s with forwarded := s.forwarded ++ [r] })

def backlog : Backlog Service where
  take s :=
    match s.forwarded with
    | [] => none
    | r :: rest => some (r, { s with forwarded := rest })

def perform {α : Type} (p : Program α) (s : Service) : Option (α × Service) :=
  p.runSettled around.settings around.limit (answer around) backlog s

end Service
end Outreach
