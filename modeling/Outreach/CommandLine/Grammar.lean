import Outreach.Automation.Basic

/-! Grammars of command lines: a tree of commands with options and positional values, and the reading of
words by such a tree. -/
namespace Outreach.CommandLine

inductive UsageError where
  | missingArgument
  | missingSubcommand
  | nothingGiven
  | unknownArgument
  | unknownSubcommand
  | unlistedValue
  | unreadableValue
  | unneededValue
  | repeatedArgument
  | helpAsked
  | versionAsked
  deriving DecidableEq, Repr

def UsageError.message : UsageError → String
  | .missingArgument => "a required argument is missing"
  | .missingSubcommand | .nothingGiven => "a subcommand is required"
  | .unknownArgument => "unexpected argument"
  | .unknownSubcommand => "unrecognized subcommand"
  | .unlistedValue => "a value is missing or not one of the possible values"
  | .unreadableValue => "invalid value"
  | .unneededValue => "unexpected value for a flag"
  | .repeatedArgument => "an argument cannot be used multiple times"
  | .helpAsked | .versionAsked => ""

inductive ValueKind where
  | text
  | path
  | uuid
  | integer
  | portNumber
  | status
  | choice (names : List String)
  deriving DecidableEq, Repr

namespace ValueKind

def integer? (s : String) : Option Int := Text.integer? s.toList

def portNumber? (s : String) : Option Nat :=
  match integer? s with
  | some (.ofNat n) => if n < Nat.pow 2 16 then some n else none
  | _ => none

def status? (s : String) : Option AutomationStatus := (AutomationStatus.parse s).toOption

def fault? (k : ValueKind) (s : String) : Option UsageError :=
  let readable (b : Bool) : Option UsageError := if b then none else some .unreadableValue
  match k with
  | .text => none
  | .path => if s.isEmpty then some .unlistedValue else none
  | .uuid => readable (Uuid.parse? s).isSome
  | .integer => readable (integer? s).isSome
  | .portNumber => readable (portNumber? s).isSome
  | .status => readable (status? s).isSome
  | .choice names => if names.contains s then none else some .unlistedValue

end ValueKind

inductive OptionKind where
  | flag
  | counter
  | value (k : ValueKind)
  | help
  | version
  deriving DecidableEq, Repr

structure Opt where
  name : String
  letter : Option Char
  kind : OptionKind
  required : Bool
  envName : Option String
  deriving DecidableEq, Repr

structure Positional where
  name : String
  kind : ValueKind
  deriving DecidableEq, Repr

structure Command where
  name : String
  aliases : List String
  options : List Opt
  positionals : List Positional
  subcommands : List Command

namespace Command

def answersTo (c : Command) (word : String) : Bool := c.name == word || c.aliases.contains word

def subcommand? (c : Command) (word : String) : Option Command := c.subcommands.find? (·.answersTo word)

def named? (c : Command) (name : String) : Option Opt := c.options.find? (·.name == name)

def lettered? (c : Command) (letter : Char) : Option Opt := c.options.find? (·.letter == some letter)

def isHelp (c : Command) (word : String) : Bool := word == "help" && !c.subcommands.isEmpty

def helpAbout : Command → List String → UsageError
  | _, [] => .helpAsked
  | c, w :: r =>
    match c.subcommand? w with
    | some s => helpAbout s r
    | none => if c.isHelp w && r.isEmpty then .helpAsked else .unknownSubcommand

end Command

/-- An option or positional whose value, if it is there yet, has still to be looked at. -/
structure Pending where
  name : String
  kind : ValueKind
  value : Option String

structure Level where
  /-- What was given so far; flags have no value. -/
  given : List (String × String)
  pending : Option Pending
  places : Nat
  trailing : Bool

namespace Level

def start : Level := ⟨[], none, 0, false⟩

def hasGiven (l : Level) (name : String) : Bool := l.given.any (·.1 == name)

def take (name : String) (kind : ValueKind) (value : String) (l : Level) : Except UsageError Level :=
  if l.hasGiven name then .error .repeatedArgument
  else match kind.fault? value with
    | some e => .error e
    | none => .ok { l with given := l.given ++ [(name, value)] }

def settle (l : Level) : Except UsageError Level :=
  match l.pending with
  | none => .ok l
  | some ⟨_, _, none⟩ => .error .unlistedValue
  | some ⟨name, kind, some value⟩ => { l with pending := none }.take name kind value

def awaits (l : Level) : Bool := l.pending.any (·.value.isNone)

def switch (o : Opt) (l : Level) : Except UsageError Level := do
  let l ← l.settle
  match o.kind with
  | .help => throw .helpAsked
  | .version => throw .versionAsked
  | .flag => l.take o.name .text ""
  | .counter | .value _ => return { l with given := l.given ++ [(o.name, "")] }

def option (o : Opt) (kind : ValueKind) (attached : Option String) (l : Level) : Except UsageError Level := do
  let l ← l.settle
  match attached with
  | some value => l.take o.name kind value
  | none => return { l with pending := some ⟨o.name, kind, none⟩ }

def long (c : Command) (body : List Char) (l : Level) : Except UsageError Level :=
  let (name, attached) := match Text.cutAt '=' body with
    | some (n, v) => (String.ofList n, some (String.ofList v))
    | none => (String.ofList body, none)
  match c.named? name, attached with
  | none, _ => .error .unknownArgument
  | some o, attached =>
    match o.kind, attached with
    | .value kind, attached => l.option o kind attached
    | _, some _ => .error .unneededValue
    | _, none => l.switch o

/-- Letters after one dash; what follows a letter that takes a value is the value. -/
def letters (c : Command) (l : Level) : List Char → Except UsageError Level
  | [] => .ok l
  | x :: r =>
    match c.lettered? x with
    | none => .error .unknownArgument
    | some o =>
      match o.kind with
      | .value kind =>
        let value := match r with
          | '=' :: v => some (String.ofList v)
          | [] => none
          | v => some (String.ofList v)
        l.option o kind value
      | _ => do letters c (← l.switch o) r

def place (c : Command) (word : String) (l : Level) : Except UsageError Level :=
  match c.positionals[l.places]? with
  | some p => do
    let l ← l.settle
    return { l with pending := some ⟨p.name, p.kind, some word⟩, places := l.places + 1 }
  | none =>
    if c.subcommands.isEmpty || (l.trailing && ((c.subcommand? word).isSome || c.isHelp word)) then
      .error .unknownArgument
    else .error .unknownSubcommand

end Level

inductive Step where
  | stay (l : Level)
  | enter (c : Command)
  | help

def Level.step (c : Command) (word : String) (l : Level) : Except UsageError Step :=
  if l.trailing then .stay <$> l.place c word
  else
    match l.awaits, c.isHelp word, c.subcommand? word with
    | false, true, _ => .ok .help
    | false, false, some s => .ok (.enter s)
    | _, _, _ =>
      match word.toList with
      | ['-', '-'] => .ok (.stay { l with trailing := true })
      | '-' :: '-' :: body => .stay <$> l.long c body
      | '-' :: x :: r => .stay <$> l.letters c (x :: r)
      | _ =>
        match l.pending with
        | some ⟨name, kind, none⟩ => .ok (.stay { l with pending := some ⟨name, kind, some word⟩ })
        | _ => .stay <$> l.place c word

structure Reading where
  path : List String
  given : List (String × String)
  deriving DecidableEq, Repr

variable (environment : String → Option String)

def Level.withEnvironment (c : Command) (l : Level) : Level :=
  c.options.foldl (fun l o =>
    match o.envName.bind environment with
    | some value => if l.hasGiven o.name then l else { l with given := l.given ++ [(o.name, value)] }
    | none => l) l

def Level.finish (c : Command) (inner : Option Reading) (l : Level) : Except UsageError Reading := do
  let l ← l.settle
  let l := l.withEnvironment environment c
  match inner with
  | some r => return ⟨c.name :: r.path, l.given ++ r.given⟩
  | none =>
    if !c.subcommands.isEmpty then throw (if l.given.isEmpty then .nothingGiven else .missingSubcommand)
    let needed := (c.options.filter (·.required)).map (·.name) ++ c.positionals.map (·.name)
    if needed.all l.hasGiven then return ⟨[c.name], l.given⟩ else throw .missingArgument

/-- Reads the words of a command line. A subcommand is read to its end before what is pending outside. -/
def readFrom (c : Command) (l : Level) : List String → Except UsageError Reading
  | [] => l.finish environment c none
  | w :: r => do
    match ← l.step c w with
    | .stay l => readFrom c l r
    | .help => throw (c.helpAbout r)
    | .enter s => l.finish environment c (some (← readFrom s .start r))

def Command.read (c : Command) (words : List String) : Except UsageError Reading :=
  readFrom environment c .start words

end Outreach.CommandLine
