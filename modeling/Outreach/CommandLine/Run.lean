import Outreach.CommandLine.Order
import Outreach.CommandLine.Show
import Outreach.Engine.Management
import Outreach.Service.Basic

/-! Carrying out orders. -/
namespace Outreach.CommandLine

inductive OrderError where
  | unreadable (path reason : String)
  | unwritable (path reason : String)
  | management (e : ManagementError)
  | importing (e : ManagementError)
  | boardFile
  | saveBoard (id : String) (e : RepositoryError)
  | saveConnection (e : RepositoryError)
  | listConnections (e : RepositoryError)
  | tagMissing
  | stageMissing
  | payload
  | contact (e : RepositoryError)
  | contactMissing (id : Int)
  | boards (e : RepositoryError)
  | fire (trigger : String) (e : FireError)
  | sweep (e : SweepError)

def OrderError.message : OrderError → String
  | .unreadable path reason => "Failed to read " ++ path ++ ": " ++ reason
  | .unwritable path reason => "Failed to write " ++ path ++ ": " ++ reason
  | .management (.notFound id) => "Automation '" ++ id.text ++ "' not found"
  | .management e => e.message
  | .importing e => "Failed to import automation: " ++ e.message
  | .boardFile => "Failed to parse board file"
  | .saveBoard id e => "Failed to save board '" ++ id ++ "': " ++ e.message
  | .saveConnection e => "Failed to save connection: " ++ e.message
  | .listConnections e => "Failed to list connections: " ++ e.message
  | .tagMissing => "--tag is required for tag-added"
  | .stageMissing => "--stage is required for crm-stage-changed"
  | .payload => "--payload is not valid JSON"
  | .contact e => "Failed to load contact: " ++ e.message
  | .contactMissing id => "Contact " ++ Text.decimalInt id ++ " not found"
  | .boards e => "Failed to load boards: " ++ e.message
  | .fire trigger e => "Failed to fire " ++ trigger ++ ": " ++ e.message
  | .sweep e => "Sweep failed: " ++ e.message

structure Files where
  read : String → Except String String
  unwritable? : String → Option String

structure Output where
  printed : String
  written : Option (String × String)
  deriving DecidableEq, Repr

abbrev Attempt := Outreach.Attempt OrderError

variable (files : Files)

def readFile (path : String) : CommandLine.Attempt String :=
  match files.read path with
  | .ok text => pure text
  | .error reason => throw (.unreadable path reason)

/-- The boards of a file: a list of them, or else a single one. -/
def boardsOf (text : String) : Option (List BoardFile) :=
  match Decode.ofText (Decode.list BoardFile.decode) text, Decode.ofText BoardFile.decode text with
  | .ok bs, _ => some bs
  | .error _, .ok b => some [b]
  | .error _, .error _ => none

def saveBoards (user : Uuid) (saved : List Board) : List BoardFile → CommandLine.Attempt (List Board)
  | [] => return saved
  | b :: rest => do
    let now ← Attempt.always (.request .now)
    let board : Board := ⟨b.id, user, b.name, b.stages, now⟩
    Attempt.of (.saveBoard b.id) (.request (.saveBoard board))
    saveBoards user (saved ++ [board]) rest

def stageEvent (f : Firing) (stage : String) : CommandLine.Attempt Event := do
  match ← Attempt.of .contact (.request (.getContact f.contact)) with
  | none => throw (.contactMissing f.contact)
  | some contact =>
    let boards ← Attempt.of .boards (.request (.listBoards contact.userId))
    let title := (((boards.flatMap (·.stages)).find? (·.id == stage)).map (·.title)).getD ""
    let board := f.board.map fun id => ⟨id, ((boards.find? (·.id == id)).map (·.name)).getD ""⟩
    return .crmStageChanged board ⟨stage, title⟩

def event (f : Firing) : CommandLine.Attempt Event := do
  match f.trigger with
  | "tag-added" =>
    match f.tag with
    | some tag => return .tagAdded tag
    | none => throw .tagMissing
  | "context-message" => return .contextMessage (f.text.getD "")
  | "webhook" =>
    match f.payload.map Json.parse? with
    | none => return .webhook (.obj [])
    | some (some payload) => return .webhook payload
    | some none => throw .payload
  | "crm-stage-changed" =>
    match f.stage with
    | some stage => stageEvent f stage
    | none => throw .stageMissing
  | _ => return .contactCreated

variable (settings : EngineSettings) (limit : Nat)

def managed {α : Type} (p : Management.Attempt α) : CommandLine.Attempt α := .of .management p.run

def print : Order → CommandLine.Attempt (Option Printed)
  | .sweep => return some (printSweep (← Attempt.of .sweep (Outreach.sweep settings limit).run))
  | .listAutomations user => return some (printAutomations (← managed (Management.list user)))
  | .showAutomation id => return some (printAutomation (← managed (Management.get id)))
  | .importAutomation file user => do
    let document ← readFile files file
    return some (printImported (← Attempt.of .importing (Management.importText user document).run))
  | .setStatus id status => do
    managed (Management.setStatus id status)
    return some (printStatus id status)
  | .deleteAutomation id => do
    managed (Management.delete id)
    return some (printDeleted id)
  | .showStats id => return some (printStats (← managed (Management.get id)))
  | .addConnection c =>
    return some (printAdded (← Attempt.of .saveConnection (.request (.createConnection c))))
  | .listConnections user =>
    return some (printConnections (← Attempt.of .listConnections (.request (.listConnections user))))
  | .importBoards file user => do
    match boardsOf (← readFile files file) with
    | some bs => return some (printBoards (← saveBoards user [] bs))
    | none => throw .boardFile
  | .fire f => do
    let event ← event f
    let report ← Attempt.of (.fire event.subType) (fire settings limit event f.contact .contactOwner).run
    return some (printReport event.subType report)
  | .exportAutomation .. | .serve .. | .completions _ => return none

def carryOut (i : Invocation) : CommandLine.Attempt Output := do
  match i.order with
  | .exportAutomation id file =>
    let document ← managed (Management.exportText id)
    match file with
    | none => return ⟨document ++ "\n", none⟩
    | some path =>
      match files.unwritable? path with
      | some reason => throw (.unwritable path reason)
      | none => return ⟨"", some (path, document)⟩
  | order =>
    match ← print files settings limit order with
    | some p => return ⟨p.output i.json, none⟩
    | none => return ⟨"", none⟩

end CommandLine

def Service.obey (around : Surroundings) (files : CommandLine.Files) (i : CommandLine.Invocation) (s : Service) :
    Option (Except CommandLine.OrderError CommandLine.Output × Service) :=
  s.perform around (CommandLine.carryOut files around.settings around.limit i).run

end Outreach
