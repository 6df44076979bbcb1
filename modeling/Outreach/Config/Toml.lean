import Outreach.Json.Doc
import Outreach.Time.Calendar

/-! Configuration files in TOML: lines of `key = value` under headers that name tables. A text is read into
one document, or refused as a whole. -/
namespace Outreach.Toml

/-- How a table came to be, which decides who may add to it. -/
inductive TableKind where
  /-- It lies on the way to a table with a header. -/
  | implied
  /-- It lies on the way of a dotted key. -/
  | dotted
  /-- It has a header, or is the root. -/
  | declared
  deriving DecidableEq, Repr

inductive Item where
  | value (d : Doc)
  | table (kind : TableKind) (entries : List (String × Item))
  | tables (items : List (List (String × Item)))

abbrev Entries := List (String × Item)

/-! ### Building tables -/

def find? (es : Entries) (key : String) : Option Item := (es.find? (·.1 == key)).map (·.2)

def replace (es : Entries) (key : String) (item : Item) : Entries :=
  es.map fun e => if e.1 == key then (key, item) else e

def atPath (dotted : Bool) (change : TableKind → Entries → Option (TableKind × Entries)) :
    List String → TableKind → Entries → Option (TableKind × Entries)
  | [], kind, es => change kind es
  | key :: path, kind, es =>
    match find? es key with
    | none => do
      let (k, inner) ← atPath dotted change path (if dotted then .dotted else .implied) []
      return (kind, es ++ [(key, .table k inner)])
    | some (.value _) => none
    | some (.table k inner) => do
      if dotted && k == .declared then none
      let (k, inner) ← atPath dotted change path k inner
      return (kind, replace es key (.table k inner))
    | some (.tables items) => do
      let last ← items.getLast?
      let (_, inner) ← atPath dotted change path .declared last
      return (kind, replace es key (.tables (items.dropLast ++ [inner])))

def insertNew (key : String) (item : Item) (kind : TableKind) (es : Entries) :
    Option (TableKind × Entries) :=
  if (find? es key).isSome then none else some (kind, es ++ [(key, item)])

/-- A dotted key adds only to tables that dotted keys have made. -/
def putDotted (path : List String) (key : String) (d : Doc) (kind : TableKind) (es : Entries) :
    Option (TableKind × Entries) :=
  atPath true (fun k inner =>
    if path.isEmpty || k == .dotted then insertNew key (.value d) k inner else none) path kind es

def declare (key : String) (kind : TableKind) (es : Entries) : Option (TableKind × Entries) :=
  match find? es key with
  | none => some (kind, es ++ [(key, .table .declared [])])
  | some (.table .implied inner) => some (kind, replace es key (.table .declared inner))
  | some _ => none

def declareNext (key : String) (kind : TableKind) (es : Entries) : Option (TableKind × Entries) :=
  match find? es key with
  | none => some (kind, es ++ [(key, .tables [[]])])
  | some (.tables items) => some (kind, replace es key (.tables (items ++ [[]])))
  | some _ => none

mutual

def Item.doc : Item → Doc
  | .value d => d
  | .table _ es => .obj (entryDocs es)
  | .tables items => .arr (itemDocs items)

def entryDocs : List (String × Item) → List (Option String × Doc)
  | [] => []
  | (k, i) :: r => (some k, i.doc) :: entryDocs r

def itemDocs : List (List (String × Item)) → List Doc
  | [] => []
  | es :: r => .obj (entryDocs es) :: itemDocs r

end

/-! ### Blanks, line ends and strings -/

def isGap (c : Char) : Bool := c == ' ' || c == '\t'

def skipGaps (s : List Char) : List Char := s.dropWhile isGap

def isPlain (c : Char) : Bool := c == '\t' || (32 ≤ c.toNat && c.toNat != 127)

def newline? : List Char → Option (List Char)
  | '\n' :: r => some r
  | '\r' :: '\n' :: r => some r
  | _ => none

def skipComment : List Char → List Char
  | '#' :: r => r.dropWhile isPlain
  | s => s

def lineEnd? (s : List Char) : Option (List Char) :=
  match skipComment (skipGaps s) with
  | [] => some []
  | s => newline? s

def skipLines : Nat → List Char → List Char
  | 0, s => s
  | n + 1, s =>
    match newline? (skipComment (skipGaps s)) with
    | some r => skipLines n r
    | none => skipGaps s

def scalar? (n : Nat) : Option Char :=
  if n < 0xD800 ∨ (0xE000 ≤ n ∧ n < 0x110000) then some (Char.ofNat n) else none

def coded? (width : Nat) (s : List Char) : Option (Char × List Char) := do
  let ds := s.take width
  if ds.length ≠ width then none
  let vs ← ds.mapM Text.hexValue?
  let c ← scalar? (vs.foldl (fun n v => 16 * n + v) 0)
  return (c, s.drop width)

def escape? : List Char → Option (Char × List Char)
  | 'b' :: r => some (Char.ofNat 8, r)
  | 't' :: r => some ('\t', r)
  | 'n' :: r => some ('\n', r)
  | 'f' :: r => some (Char.ofNat 12, r)
  | 'r' :: r => some ('\r', r)
  | '"' :: r => some ('"', r)
  | '\\' :: r => some ('\\', r)
  | 'u' :: r => coded? 4 r
  | 'U' :: r => coded? 8 r
  | _ => none

def lineString (mark : Char) (escapes : Bool) : Nat → List Char → List Char → Option (String × List Char)
  | 0, _, _ => none
  | _, _, [] => none
  | n + 1, acc, c :: r =>
    if c == mark then some (String.ofList acc.reverse, r)
    else if escapes && c == '\\' then do
      let (d, r) ← escape? r
      lineString mark escapes n (d :: acc) r
    else if isPlain c then lineString mark escapes n (c :: acc) r
    else none

/-- After a backslash at the end of a line: all white space up to the next text. -/
def joined? (s : List Char) : Option (List Char) := do
  let r ← newline? (skipGaps s)
  return r.dropWhile fun c => isGap c || c == '\n' || c == '\r'

/-- The rest of a string over several lines; up to two marks may stand right before the closing three. -/
def blockString (mark : Char) (escapes : Bool) : Nat → List Char → List Char → Option (String × List Char)
  | 0, _, _ => none
  | _, _, [] => none
  | n + 1, acc, c :: r =>
    let marks := (c :: r).takeWhile (· == mark)
    if 3 ≤ marks.length then
      if marks.length ≤ 5 then
        some (String.ofList ((marks.drop 3) ++ acc).reverse, (c :: r).drop marks.length)
      else none
    else if escapes && c == '\\' then
      match joined? r with
      | some r => blockString mark escapes n acc r
      | none => do
        let (d, r) ← escape? r
        blockString mark escapes n (d :: acc) r
    else
      match newline? (c :: r) with
      | some r => blockString mark escapes n ('\n' :: acc) r
      | none => if isPlain c then blockString mark escapes n (c :: acc) r else none

def string? (s : List Char) : Option (String × List Char) :=
  let n := s.length + 1
  let block (mark : Char) (r : List Char) :=
    blockString mark (mark == '"') n [] ((newline? r).getD r)
  match s with
  | '"' :: '"' :: '"' :: r => block '"' r
  | '\'' :: '\'' :: '\'' :: r => block '\'' r
  | '"' :: r => lineString '"' true n [] r
  | '\'' :: r => lineString '\'' false n [] r
  | _ => none

/-! ### Keys -/

def isKeyChar (c : Char) : Bool := c.isAlphanum || c == '-' || c == '_'

def simpleKey? (s : List Char) : Option (String × List Char) :=
  match s with
  | '"' :: r => lineString '"' true (s.length + 1) [] r
  | '\'' :: r => lineString '\'' false (s.length + 1) [] r
  | s =>
    let k := s.takeWhile isKeyChar
    if k.isEmpty then none else some (String.ofList k, s.drop k.length)

def key? : Nat → List Char → Option ((List String × String) × List Char)
  | 0, _ => none
  | n + 1, s => do
    let (k, r) ← simpleKey? s
    match skipGaps r with
    | '.' :: r =>
      let ((path, last), r) ← key? n (skipGaps r)
      return ((k :: path, last), r)
    | _ => return (([], k), r)

/-! ### Numbers and dates -/

def digits? (isDigit : Char → Bool) : List Char → Option (List Char)
  | [] => none
  | [c] => if isDigit c then some [c] else none
  | c :: '_' :: r => if isDigit c then (digits? isDigit r).map (c :: ·) else none
  | c :: r => if isDigit c then (digits? isDigit r).map (c :: ·) else none

def valueIn (base : Nat) (ds : List Char) : Nat :=
  ds.foldl (fun n d => base * n + (Text.hexValue? d).getD 0) 0

def signed (s : List Char) : Bool × List Char :=
  match s with
  | '-' :: r => (true, r)
  | '+' :: r => (false, r)
  | _ => (false, s)

/-- A decimal number without superfluous zeros in front. -/
def whole? (s : List Char) : Option (List Char) := do
  let ds ← digits? Char.isDigit s
  if ds.head? = some '0' ∧ 1 < ds.length then none else some ds

def integer? (s : List Char) : Option Int := do
  let n : Int ← match s with
    | '0' :: 'x' :: r => (digits? (fun c => (Text.hexValue? c).isSome) r).map fun ds => (valueIn 16 ds : Int)
    | '0' :: 'o' :: r => (digits? (fun c => '0' ≤ c && c ≤ '7') r).map fun ds => (valueIn 8 ds : Int)
    | '0' :: 'b' :: r => (digits? (fun c => c == '0' || c == '1') r).map fun ds => (valueIn 2 ds : Int)
    | s =>
      let (negative, r) := signed s
      (whole? r).map fun ds => if negative then -(valueIn 10 ds : Int) else valueIn 10 ds
  if -Nat.pow 2 63 ≤ n ∧ n < Nat.pow 2 63 then some n else none

def isFloat (s : List Char) : Bool :=
  let (_, r) := signed s
  let isExponent (e : List Char) : Bool := (digits? Char.isDigit (signed e).2).isSome
  let mantissa := r.takeWhile fun c => c != 'e' && c != 'E'
  let exponent := (r.drop mantissa.length).drop 1
  let exponentFits := mantissa.length == r.length || isExponent exponent
  String.ofList r == "inf" || String.ofList r == "nan" ||
    (exponentFits && match Text.cutAt '.' mantissa with
      | some (w, f) => (whole? w).isSome && (digits? Char.isDigit f).isSome
      | none => mantissa.length != r.length && (whole? mantissa).isSome)

def twoDigits? (hi : Nat) (s : List Char) : Option (Nat × List Char) := do
  let ds := s.take 2
  if ds.length = 2 ∧ ds.all Char.isDigit ∧ Text.digitsValue ds ≤ hi then
    return (Text.digitsValue ds, s.drop 2)
  else none

def date? (s : List Char) : Option (List Char) := do
  let y := s.take 4
  if y.length ≠ 4 ∨ !y.all Char.isDigit then none
  let r ← Text.after? ['-'] (s.drop 4)
  let (m, r) ← twoDigits? 12 r
  let r ← Text.after? ['-'] r
  let (d, r) ← twoDigits? 31 r
  let _ ← Time.Date.of? (Text.digitsValue y) m d
  return r

def time? (s : List Char) : Option (List Char) := do
  let (_, r) ← twoDigits? 23 s
  let r ← Text.after? [':'] r
  let (_, r) ← twoDigits? 59 r
  let r ← Text.after? [':'] r
  let (_, r) ← twoDigits? 60 r
  match r with
  | '.' :: f => if (f.takeWhile Char.isDigit).isEmpty then none else some (f.dropWhile Char.isDigit)
  | r => some r

def isOffset (s : List Char) : Bool :=
  match s with
  | [] | ['Z'] | ['z'] => true
  | c :: r => (c == '+' || c == '-') && ((do
      let (_, r) ← twoDigits? 23 r
      let r ← Text.after? [':'] r
      let (_, r) ← twoDigits? 59 r
      if r.isEmpty then some () else none : Option Unit)).isSome

def isDateTime (s : List Char) : Bool :=
  match date? s with
  | none => time? s == some []
  | some [] => true
  | some (c :: r) => (c == 'T' || c == 't' || c == ' ') && (time? r).any isOffset

/-! ### Values and documents -/

def isBareChar (c : Char) : Bool := c.isAlphanum || c == '+' || c == '-' || c == '_' || c == '.' || c == ':'

/-- Numbers, dates and truth values. Dates are of no use to anyone here. -/
def bare? (s : List Char) : Option (Doc × List Char) := do
  let t := s.takeWhile isBareChar
  let r := s.drop t.length
  let (t, r) := match date? t, r with
    | some [], ' ' :: d :: r' =>
      if d.isDigit then
        let u := (d :: r').takeWhile isBareChar
        (t ++ ' ' :: u, (d :: r').drop u.length)
      else (t, r)
    | _, _ => (t, r)
  if String.ofList t = "true" then return (.bool true, r)
  if String.ofList t = "false" then return (.bool false, r)
  match integer? t with
  | some i => return (.num (.int i), r)
  | none => if isFloat t || isDateTime t then return (.unreadable, r) else none

mutual

def value? : Nat → List Char → Option (Doc × List Char)
  | 0, _ => none
  | n + 1, s =>
    match s with
    | '[' :: r => (items n r).map fun (ds, r) => (.arr ds, r)
    | '\x7b' :: r =>
      match skipGaps r with
      | '\x7d' :: r => some (.obj [], r)
      | r => (members n .declared [] r).map fun (es, r) => (.obj (entryDocs es), r)
    | '"' :: _ | '\'' :: _ => (string? s).map fun (t, r) => (.str t, r)
    | s => bare? s

def items : Nat → List Char → Option (List Doc × List Char)
  | 0, _ => none
  | n + 1, s =>
    match skipLines (s.length + 1) s with
    | ']' :: r => some ([], r)
    | s => do
      let (d, r) ← value? n s
      match skipLines (r.length + 1) r with
      | ',' :: r =>
        let (ds, r) ← items n r
        return (d :: ds, r)
      | ']' :: r => return ([d], r)
      | _ => none

def members : Nat → TableKind → Entries → List Char → Option (Entries × List Char)
  | 0, _, _, _ => none
  | n + 1, kind, es, s => do
    let ((path, last), r) ← key? (s.length + 1) (skipGaps s)
    let r ← Text.after? ['='] (skipGaps r)
    let (d, r) ← value? n (skipGaps r)
    let (kind, es) ← putDotted path last d kind es
    match skipGaps r with
    | ',' :: r => members n kind es r
    | '\x7d' :: r => return (es, r)
    | _ => none

end

structure Reading where
  root : Entries
  header : List String

def Reading.change (r : Reading) (path : List String)
    (f : TableKind → Entries → Option (TableKind × Entries)) : Option Entries :=
  (atPath false f path .declared r.root).map (·.2)

def line? (t : Reading) (s : List Char) : Option (Reading × List Char) := do
  let header (close : List Char) (s : List Char)
      (f : String → TableKind → Entries → Option (TableKind × Entries)) : Option (Reading × List Char) := do
    let ((path, last), r) ← key? (s.length + 1) (skipGaps s)
    let r ← Text.after? close (skipGaps r)
    let r ← lineEnd? r
    return (⟨← t.change path (f last), path ++ [last]⟩, r)
  match skipGaps s with
  | '[' :: '[' :: r => header [']', ']'] r declareNext
  | '[' :: r => header [']'] r declare
  | s =>
    match lineEnd? s with
    | some r => return (t, r)
    | none =>
      let ((path, last), r) ← key? (s.length + 1) s
      let r ← Text.after? ['='] (skipGaps r)
      let (d, r) ← value? (2 * r.length + 2) (skipGaps r)
      let r ← lineEnd? r
      return (⟨← t.change t.header (putDotted path last d), t.header⟩, r)

def lines : Nat → Reading → List Char → Option Entries
  | _, t, [] => some t.root
  | 0, _, _ => none
  | n + 1, t, s => do
    let (t, r) ← line? t s
    lines n t r

def parse? (text : String) : Option Doc :=
  let s := match text.toList with
    | '\ufeff' :: r => r
    | s => s
  (lines (s.length + 1) ⟨[], []⟩ s).map fun es => .obj (entryDocs es)

end Outreach.Toml
