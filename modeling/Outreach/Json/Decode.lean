import Outreach.Json.Reader

/-! Typed values from documents. Members are decoded in the order in which they stand and the first
failure is reported; members that lack are noticed only after that, in the order of declaration. -/
namespace Outreach

mutual

inductive DecodeError where
  | missing (field : String)
  | duplicate (field : String)
  | unknownVariant (name : String)
  | invalid
  | malformed
  | graph (e : GraphError)

inductive GraphError where
  | subTypeMismatch (node subType dataType : String)
  | notAnObject (node kind : String)
  | invalidData (node kind : String) (cause : DecodeError)

end

mutual

def DecodeError.message : DecodeError → String
  | .missing f => "missing field `" ++ f ++ "`"
  | .duplicate f => "duplicate field `" ++ f ++ "`"
  | .unknownVariant v => "unknown variant `" ++ v ++ "`"
  | .invalid => "invalid value"
  | .malformed => "malformed text"
  | .graph e => e.message

def GraphError.message : GraphError → String
  | .subTypeMismatch n s d =>
    "node '" ++ n ++ "': subType '" ++ s ++ "' does not match data type '" ++ d ++ "'"
  | .notAnObject n k => "node '" ++ n ++ "': invalid " ++ k ++ " data: data must be an object"
  | .invalidData n k e => "node '" ++ n ++ "': invalid " ++ k ++ " data: " ++ e.message

end

/-- Where a document comes from. A text reports a wrong shape as malformed in places where a value is
found invalid; the members of a tagged value were set aside before their type was known, and are read
more leniently. -/
inductive Origin where
  | text
  | value
  | setAside
  deriving DecidableEq, Repr

abbrev Decoder (α : Type) := Origin → Doc → Except DecodeError α

namespace Decode
variable {α β : Type}

def mismatch : Doc → DecodeError
  | .unreadable | .broken => .malformed
  | _ => .invalid

def string : Decoder String
  | _, .str s => .ok s
  | _, d => .error (mismatch d)

def bool : Decoder Bool
  | _, .bool b => .ok b
  | _, d => .error (mismatch d)

def intIn (lo hi : Int) : Decoder Int
  | _, .num (.int i) => if lo ≤ i ∧ i < hi then .ok i else .error .invalid
  | _, d => .error (mismatch d)

def int64 : Decoder Int := intIn (-(Nat.pow 2 63 : Nat)) (Nat.pow 2 63 : Nat)

def nat (bound : Nat) : Decoder Nat := fun o d => (intIn 0 bound o d).map Int.toNat

def float : Decoder Binary64
  | _, .num n => .ok n.toFloat
  | _, d => .error (mismatch d)

def json : Decoder Json := fun _ d =>
  match d.value? with
  | some j => .ok j
  | none => .error .malformed

def option (dec : Decoder α) : Decoder (Option α)
  | _, .null => .ok none
  | o, d => (dec o d).map some

def listFrom (dec : Decoder α) (o : Origin) : List Doc → Except DecodeError (List α)
  | [] => .ok []
  | d :: r => do
    let a ← dec o d
    let as ← listFrom dec o r
    return a :: as

def list (dec : Decoder α) : Decoder (List α)
  | o, .arr items => listFrom dec o items
  | _, d => .error (mismatch d)

def parsed (read : String → Option α) : Decoder α := fun o d => do
  match read (← string o d) with
  | some a => .ok a
  | none => .error .invalid

def keyedFrom (dec : Decoder α) (o : Origin) :
    List (Option String × Doc) → Except DecodeError (List (String × α))
  | [] => .ok []
  | (none, _) :: _ => .error .malformed
  | (some k, d) :: r => do
    let a ← dec o d
    let as ← keyedFrom dec o r
    return (k, a) :: as

def keyed (dec : Decoder α) : Decoder (Keyed α)
  | o, .obj ms => (keyedFrom dec o ms).map Keyed.ofList
  | _, d => .error (mismatch d)

def variantNamed (variants : List (String × α)) (name : String) : Except DecodeError α :=
  match variants.find? (·.1 == name) with
  | some v => .ok v.2
  | none => .error (.unknownVariant name)

def unit : Decoder Unit
  | _, .null => .ok ()
  | .setAside, .obj [] => .ok ()
  | _, d => .error (mismatch d)

/-- One of several names, alone or as the only key of an object without content. -/
def choice (variants : List (String × α)) : Decoder α
  | _, .str s => variantNamed variants s
  | _, .obj [(some k, d)] => do
    let a ← variantNamed variants k
    match d with
    | .null => return a
    | .obj [] => return a
    | d => throw (mismatch d)
  | .text, .obj ((some k, d) :: _) => do
    let _ ← variantNamed variants k
    let _ ← unit .text d
    throw .malformed
  | .text, _ => .error .malformed
  | _, d => .error (mismatch d)

inductive Layout where
  | members
  | positions
  deriving DecidableEq, Repr

/-- One field, with the other names it goes by, decoded for its failure alone. -/
structure Check where
  name : String
  aliases : List String
  run : Decoder Unit

def Check.answersTo (c : Check) (key : String) : Bool := c.name == key || c.aliases.contains key

structure Fields (α : Type) where
  checks : List Check
  build : Origin → Layout → (Check → Option Doc) → Except DecodeError α

namespace Fields

def map (f : α → β) (x : Fields α) : Fields β :=
  ⟨x.checks, fun o l find => (x.build o l find).map f⟩

def ap (f : Fields (α → β)) (x : Fields α) : Fields β :=
  ⟨f.checks ++ x.checks, fun o l find => do
    let g ← f.build o l find
    let a ← x.build o l find
    return g a⟩

instance : Functor Fields := ⟨map, fun a x => map (fun _ => a) x⟩

instance : Seq Fields := ⟨fun f x => ap f (x ())⟩

def field (name : String) (aliases : List String) (dec : Decoder α)
    (absent : Layout → Except DecodeError α) : Fields α :=
  let c : Check := ⟨name, aliases, fun o d => (dec o d).map fun _ => ()⟩
  ⟨[c], fun o l find =>
    match find c with
    | some d => dec o d
    | none => absent l⟩

def required (name : String) (dec : Decoder α) : Fields α :=
  field name [] dec fun
    | .members => .error (.missing name)
    | .positions => .error .invalid

def optional (name : String) (dec : Decoder α) : Fields (Option α) :=
  field name [] (option dec) fun
    | .members => .ok none
    | .positions => .error .invalid

def withDefault (name : String) (a : α) (dec : Decoder α) : Fields α :=
  field name [] dec fun _ => .ok a

def aliased (name : String) (aliases : List String) (a : α) (dec : Decoder α) : Fields α :=
  field name aliases dec fun _ => .ok a

def visit (checks : List Check) (o : Origin) (seen : List String) :
    List (Option String × Doc) → Except DecodeError Unit
  | [] => .ok ()
  | (none, _) :: _ => .error .malformed
  | (some k, d) :: r =>
    match checks.find? (·.answersTo k) with
    | some c =>
      if seen.contains c.name then .error (.duplicate c.name)
      else do
        c.run o d
        visit checks o (c.name :: seen) r
    | none => if d.isWhole then visit checks o seen r else .error .malformed

def visitPositions (o : Origin) : List Check → List Doc → Except DecodeError Unit
  | c :: cs, d :: ds => do
    c.run o d
    visitPositions o cs ds
  | _, _ => .ok ()

def memberFor (ms : List (Option String × Doc)) (c : Check) : Option Doc :=
  (ms.find? fun m => m.1.any c.answersTo).map (·.2)

def positionFor (checks : List Check) (ds : List Doc) (c : Check) : Option Doc :=
  ((checks.zip ds).find? (·.1.name == c.name)).map (·.2)

def object (fs : Fields α) : Decoder α
  | o, .obj ms => do
    visit fs.checks o [] ms
    fs.build o .members (memberFor ms)
  | o, .arr ds => do
    visitPositions o fs.checks ds
    let a ← fs.build o .positions (positionFor fs.checks ds)
    if ds.length ≤ fs.checks.length then return a
    else throw (if o = .text then .malformed else .invalid)
  | _, d => .error (mismatch d)

end Fields

/-- The variant named by a document; members set aside may also give it by number. -/
def tagValue (variants : List (String × α)) : Origin → Doc → Except DecodeError α
  | _, .str s => variantNamed variants s
  | .setAside, .num (.int i) =>
    match if i < 0 then none else variants[i.toNat]? with
    | some v => .ok v.2
    | none => .error .invalid
  | _, d => .error (mismatch d)

def splitTag (tag : String) (variants : List (String × α)) (o : Origin) :
    List (Option String × Doc) → Option α → Except DecodeError (Option α × List (Option String × Doc))
  | [], found => .ok (found, [])
  | (none, _) :: _, _ => .error .malformed
  | (some k, d) :: r, found =>
    if k == tag then
      match found with
      | some _ => .error (.duplicate tag)
      | none => do
        let a ← tagValue variants o d
        splitTag tag variants o r (some a)
    else do
      let (a, rest) ← splitTag tag variants o r found
      return (a, (some k, d) :: rest)

/-- A value whose type is named by the member `tag`, or by the first item of a list; the tag is looked at
before anything else. -/
def tagged (tag : String) (variants : List (String × Decoder α)) : Decoder α
  | o, .obj ms => do
    match ← splitTag tag variants o ms none with
    | (some dec, rest) => dec .setAside (.obj rest)
    | (none, _) => throw (.missing tag)
  | o, .arr (d :: ds) => do
    let dec ← tagValue variants o d
    dec .setAside (.arr ds)
  | _, .arr [] => .error (.missing tag)
  | _, d => .error (mismatch d)

def bare (a : α) : Decoder α := fun _ _ => .ok a

def ofText (dec : Decoder α) (text : String) : Except DecodeError α := do
  let (d, ended) := Json.read text
  let a ← dec .text d
  if ended then return a else throw .malformed

def ofJson (dec : Decoder α) (j : Json) : Except DecodeError α := dec .value (Doc.ofJson j)

end Decode
end Outreach
