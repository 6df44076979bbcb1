import Outreach.CommandLine.Grammar
import Outreach.Message

/-! What can be ordered on the command line, and the grammar of the orders. -/
namespace Outreach.CommandLine

structure Firing where
  trigger : String
  contact : Int
  tag : Option String
  text : Option String
  stage : Option String
  board : Option String
  payload : Option String
  deriving DecidableEq, Repr

inductive Order where
  | serve (portNumber : Option Nat) (host : Option String) (sweeps : Bool)
  | sweep
  | listAutomations (user : Option Uuid)
  | showAutomation (id : Uuid)
  | importAutomation (file : String) (user : Uuid)
  | exportAutomation (id : Uuid) (file : Option String)
  | setStatus (id : Uuid) (status : AutomationStatus)
  | deleteAutomation (id : Uuid)
  | showStats (id : Uuid)
  | addConnection (c : NewConnection)
  | listConnections (user : Option Uuid)
  | importBoards (file : String) (user : Uuid)
  | fire (f : Firing)
  | completions (shell : String)

structure Invocation where
  json : Bool
  order : Order

/-! ### The grammar -/

def flag (name : String) (letter : Option Char) : Opt := ⟨name, letter, .flag, false, none⟩

def optional (name : String) (kind : ValueKind) : Opt := ⟨name, none, .value kind, false, none⟩

def required (name : String) (kind : ValueKind) : Opt := ⟨name, none, .value kind, true, none⟩

def commonOptions : List Opt :=
  [flag "json" none, flag "quiet" (some 'q'), ⟨"verbose", some 'v', .counter, false, none⟩,
    optional "log-format" (.choice ["pretty", "json"]), flag "otel" none,
    ⟨"help", some 'h', .help, false, none⟩, ⟨"version", some 'V', .version, false, none⟩]

def action (name : String) (aliases : List String) (positionals : List Positional) (options : List Opt) :
    Command :=
  ⟨name, aliases, options ++ commonOptions, positionals, []⟩

def group (name : String) (actions : List Command) : Command := ⟨name, [], commonOptions, [], actions⟩

def idOnly : List Positional := [⟨"id", .uuid⟩]

def fromFile : List Positional := [⟨"file", .path⟩]

def triggerNames : List String :=
  ["contact-created", "tag-added", "crm-stage-changed", "context-message", "webhook"]

def shells : List String := ["bash", "elvish", "fish", "powershell", "zsh"]

def automationCommands : Command :=
  group "automation" [
    action "list" ["ls"] [] [optional "user" .uuid],
    action "show" [] idOnly [],
    action "import" [] fromFile [required "user" .uuid],
    action "export" [] idOnly [⟨"output", some 'o', .value .path, false, none⟩],
    action "status" [] (idOnly ++ [⟨"status", .status⟩]) [],
    action "delete" ["rm"] idOnly [],
    action "stats" [] idOnly []]

def connectionCommands : Command :=
  group "connection" [
    action "add" [] [] [required "user" .uuid, required "name" .text, required "waba-id" .text,
      required "phone-number-id" .text, ⟨"token", none, .value .text, true, some "ZAPFLOW_META_TOKEN"⟩],
    action "list" ["ls"] [] [optional "user" .uuid]]

def grammar : Command :=
  group "zapflow" [
    action "serve" [] [] [optional "port" .portNumber, optional "host" .text, flag "no-sweeper" none],
    action "sweep" [] [] [],
    automationCommands,
    connectionCommands,
    group "board" [action "import" [] fromFile [required "user" .uuid]],
    action "fire" [] [⟨"trigger", .choice triggerNames⟩]
      [required "contact" .integer, optional "tag" .text, optional "text" .text, optional "stage" .text,
        optional "board" .text, optional "payload" .text],
    action "completions" [] [⟨"shell", .choice shells⟩] []]

/-! ### Orders -/

namespace Reading

def text? (r : Reading) (name : String) : Option String := (r.given.find? (·.1 == name)).map (·.2)

def has (r : Reading) (name : String) : Bool := (r.text? name).isSome

def uuid? (r : Reading) (name : String) : Option Uuid := (r.text? name).bind Uuid.parse?

/-- The order that a reading amounts to; there is one for every reading by the grammar. -/
def order? (r : Reading) : Option Order := do
  match r.path.drop 1 with
  | ["serve"] => return .serve ((r.text? "port").bind ValueKind.portNumber?) (r.text? "host") (!r.has "no-sweeper")
  | ["sweep"] => return .sweep
  | ["automation", "list"] => return .listAutomations (r.uuid? "user")
  | ["automation", "show"] => return .showAutomation (← r.uuid? "id")
  | ["automation", "import"] => return .importAutomation (← r.text? "file") (← r.uuid? "user")
  | ["automation", "export"] => return .exportAutomation (← r.uuid? "id") (r.text? "output")
  | ["automation", "status"] =>
    return .setStatus (← r.uuid? "id") (← (r.text? "status").bind ValueKind.status?)
  | ["automation", "delete"] => return .deleteAutomation (← r.uuid? "id")
  | ["automation", "stats"] => return .showStats (← r.uuid? "id")
  | ["connection", "add"] =>
    return .addConnection ⟨← r.uuid? "user", ← r.text? "name", ← r.text? "waba-id",
      ← r.text? "phone-number-id", ← r.text? "token"⟩
  | ["connection", "list"] => return .listConnections (r.uuid? "user")
  | ["board", "import"] => return .importBoards (← r.text? "file") (← r.uuid? "user")
  | ["fire"] =>
    return .fire ⟨← r.text? "trigger", ← (r.text? "contact").bind ValueKind.integer?, r.text? "tag",
      r.text? "text", r.text? "stage", r.text? "board", r.text? "payload"⟩
  | ["completions"] => return .completions (← r.text? "shell")
  | _ => none

end Reading

def Invocation.ofWords (environment : String → Option String) (words : List String) :
    Except UsageError Invocation := do
  let r ← grammar.read environment words
  match r.order? with
  | some order => return ⟨r.has "json", order⟩
  | none => throw .missingSubcommand

end Outreach.CommandLine
