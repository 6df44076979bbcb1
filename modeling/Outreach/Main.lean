import Outreach.CommandLine.Run
import Outreach.Config.File
import Outreach.Database.Snapshot
import Std.Time.DateTime.Timestamp

/-! The program: one order from the command line, carried out over a database that is kept in a file. There
is no network here, so outgoing calls fail and no requests are taken. -/
namespace Outreach.CommandLine

def runLimit : Nat := 100000

def wallClock : IO Instant := do
  let t ← Std.Time.Timestamp.now
  let ns := t.toNanosecondsSinceUnixEpoch.val
  return ⟨ns.fdiv 1000000000, (ns.fmod 1000000000).toNat⟩

def fileText (path : String) : IO (Option String) := do
  try
    return some (← IO.FS.readFile path)
  catch _ =>
    return none

def dataDirectory : IO String := do
  match ← IO.getEnv "ZAPFLOW_DATA_DIR", ← IO.getEnv "HOME" with
  | some dir, _ => return dir
  | none, some home => return home ++ "/.zapflow"
  | none, none => return ".zapflow"

def environment : IO (String → Option String) := do
  let names := "ZAPFLOW_META_TOKEN" :: Config.overrides.map (·.1)
  let values ← names.mapM fun name => return (name, ← IO.getEnv name)
  return fun name => (values.find? (·.1 == name)).bind (·.2)

def Order.inputFile? : Order → Option String
  | .importAutomation file _ | .importBoards file _ => some file
  | _ => none

def stored : Decode.Fields (Database × Nat) :=
  Prod.mk <$> .required "database" Database.ofSnapshot <*> .required "identities" (Decode.nat (Nat.pow 2 63))

def loadService (text : Option String) (clock : Instant) (seed : Nat) : Except DecodeError Service := do
  match text with
  | none => return .new .empty clock seed
  | some text =>
    let (db, identities) ← Decode.ofText stored.object text
    return { Service.new db clock seed with identities := identities }

def serviceText (s : Service) : String :=
  (Json.obj [("database", s.db.snapshot), ("identities", .nat s.identities)]).text

def complain (message : String) : IO UInt32 := do
  IO.eprintln ("Error: " ++ message)
  return 1

def obey (i : Invocation) (environment : String → Option String) : IO UInt32 := do
  let dir ← dataDirectory
  IO.FS.createDirAll dir
  let config := Config.load (← fileText (dir ++ "/config.toml")) environment
  let state := dir ++ "/state.json"
  match loadService (← fileText state) (← wallClock) (← IO.rand 0 (Nat.pow 2 64 - 1)) with
  | .error e => complain ("Failed to read " ++ state ++ ": " ++ e.message)
  | .ok service =>
    let input ← match i.order.inputFile? with
      | some path => fileText path
      | none => pure none
    let files : Files := ⟨fun _ => input.elim (.error "No such file or directory (os error 2)") .ok, fun _ => none⟩
    match service.obey ⟨config, .unreachable, runLimit⟩ files i with
    | none => complain "the order does not end"
    | some (r, service) =>
      IO.FS.writeFile state (serviceText service)
      match r with
      | .error e => complain e.message
      | .ok output =>
        if let some (path, text) := output.written then
          IO.FS.writeFile path text
          IO.eprintln ("  Exported to " ++ path)
        IO.print output.printed
        return 0

/-- The exit code is 2 for a command line that cannot be read. -/
def start (words : List String) : IO UInt32 := do
  let env ← environment
  match Invocation.ofWords env words with
  | .ok ⟨_, .serve ..⟩ => complain "there is no network to serve"
  | .ok i => obey i env
  | .error .helpAsked =>
    IO.println ("Usage: zapflow <" ++ "|".intercalate (grammar.subcommands.map (·.name)) ++ "> ...")
    return 0
  | .error .versionAsked =>
    IO.println ("zapflow " ++ Service.version)
    return 0
  | .error e =>
    IO.eprintln ("error: " ++ e.message)
    return 2

end Outreach.CommandLine

def main (words : List String) : IO UInt32 := Outreach.CommandLine.start words
