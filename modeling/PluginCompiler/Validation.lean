import PluginCompiler.Section
import PluginCompiler.Text.Digits
import PluginCompiler.Value.Inspect

/-! Checking data against an expected shape. All faults are collected, each with the path to the
place where it was found, in the order in which the shape lists its parts. -/

set_option autoImplicit false

namespace PluginCompiler

namespace Validation

inductive Step where
  | name (text : String)
  | index (n : Int)
  deriving DecidableEq, Repr

inductive Fault where
  | missing
  | textType
  | textEncoding
  | intType
  | intParsing
  | intSize
  | intFromFraction
  | notFinite
  | boolType
  | boolParsing
  | listType
  | mapType
  | recordType
  | pathType
  | value
  deriving DecidableEq, Repr

def Fault.code : Fault → String
  | .missing => "missing"
  | .textType => "string_type"
  | .textEncoding => "string_unicode"
  | .intType => "int_type"
  | .intParsing => "int_parsing"
  | .intSize => "int_parsing_size"
  | .intFromFraction => "int_from_float"
  | .notFinite => "finite_number"
  | .boolType => "bool_type"
  | .boolParsing => "bool_parsing"
  | .listType => "list_type"
  | .mapType => "dict_type"
  | .recordType => "model_type"
  | .pathType => "path_type"
  | .value => "value_error"

structure Issue where
  path : List Step
  fault : Fault
  deriving DecidableEq, Repr

end Validation

open Validation

variable {α β : Type}

inductive Checked (α : Type) where
  | valid (a : α)
  | invalid (issues : List Issue)

namespace Checked

protected def map (f : α → β) : Checked α → Checked β
  | valid a => valid (f a)
  | invalid issues => invalid issues

/-- Faults of both sides are kept, those of the first side first. -/
protected def both (f : Checked (α → β)) (a : Checked α) : Checked β :=
  match f, a with
  | valid f, valid a => valid (f a)
  | valid _, invalid issues => invalid issues
  | invalid issues, valid _ => invalid issues
  | invalid issues, invalid more => invalid (issues ++ more)

instance : Applicative Checked where
  pure := valid
  map f x := Checked.map f x
  seq f x := Checked.both f (x ())

def under (step : Step) : Checked α → Checked α
  | valid a => valid a
  | invalid issues => invalid (issues.map fun i => { i with path := step :: i.path })

def fault (f : Fault) : Checked α := invalid [⟨[], f⟩]

def all (check : α → Checked β) : Int → List α → Checked (List β)
  | _, [] => valid []
  | i, a :: rest => (· :: ·) <$> (check a).under (.index i) <*> all check (i + 1) rest

end Checked

namespace Value

/-- The integers of 64 bits are those from `-wordBound` up to, but not including, `wordBound`. -/
def wordBound : Int := 0x8000000000000000

def label (v : Value) : String :=
  if v.isWritable then v.shown else s!"<unprintable {v.kindName} object>"

/-- A step to the value under a key. Integers of 64 bits and truth values count as indices. -/
def keyStep : Value → Step
  | text s => .name s
  | bool b => .index (if b then 1 else 0)
  | int n => if -wordBound ≤ n ∧ n < wordBound then .index n else .name (label (int n))
  | v => .name (label v)

/-- Texts, and bytes that encode one. -/
def asText (v : Value) : Checked String :=
  match v.opened with
  | text s => .valid s
  | bytes b =>
    match Text.Utf8.decode b with
    | .ok s => .valid s
    | .error _ => .fault .textEncoding
  | _ => .fault .textType

/-- Underscores between digits are dropped; none may stand at an end or beside another. -/
def withoutSeparators? (cs : List Char) : Option (List Char) :=
  let rec go : List Char → Option (List Char)
    | [] => some []
    | ['_'] => none
    | '_' :: c :: rest => if c = '_' then none else (go (c :: rest))
    | c :: rest => (go rest).map (c :: ·)
  match cs with
  | '_' :: _ => none
  | cs => go cs

/-- Leading zeros, and underscores among them, are dropped; a last zero stays. -/
def withoutZeros : List Char → List Char
  | '0' :: rest =>
    match rest.dropWhile fun c => c == '0' || c == '_' with
    | [] => rest.getLast?.elim ['0'] fun c => [c]
    | '.' :: places => '0' :: '.' :: places
    | rest => rest
  | cs => cs

def withoutPlaces (cs : List Char) : List Char :=
  match cs.span (· != '.') with
  | (whole, '.' :: places) => if places.all (· == '0') then whole else cs
  | _ => cs

def plainInt? (cs : List Char) : Option Int :=
  let (negative, digits) := match cs with
    | '-' :: rest => (true, rest)
    | '+' :: rest => (false, rest)
    | rest => (false, rest)
  if digits.isEmpty || !digits.all Char.isDigit then none
  else
    let n : Int := Nat.ofDigitChars 10 digits 0
    some (if negative then -n else n)

/-- An integer in decimal digits, with what people add to them: blanks around it, a sign, leading
zeros, a fraction of zeros, or underscores between digits. -/
def lenientInt? (s : String) : Option Int :=
  let cs := Text.trimBy Text.isNumberBlank s.toList
  match plainInt? cs with
  | some n => some n
  | none =>
    let body? := match cs with
      | '+' :: '-' :: _ => none
      | '+' :: rest => some rest
      | rest => some rest
    match body? with
    | none => none
    | some body =>
      let startsRight := match body with
        | c :: _ => c.isDigit || c == '-'
        | [] => false
      if startsRight then
        let digits := withoutPlaces (withoutZeros body)
        plainInt? ((withoutSeparators? digits).getD digits)
      else none

/-- Texts that are longer than any number may be are not even looked at. -/
def asInt (v : Value) : Checked Int :=
  let ofText (s : String) : Checked Int :=
    if Text.digitLimit < s.utf8ByteSize then .fault .intSize
    else match lenientInt? s with
      | some n => .valid n
      | none => .fault .intParsing
  match v.opened with
  | int n => .valid n
  | bool b => .valid (if b then 1 else 0)
  | float x =>
    match Decimal.reading x with
    | .finite _ _ _ =>
      match Decimal.integer? x with
      | some n => if -wordBound < n ∧ n < wordBound then .valid n else .fault .intSize
      | none => .fault .intFromFraction
    | _ => .fault .notFinite
  | text s => ofText s
  | bytes b =>
    match Text.Utf8.decode b with
    | .ok s => ofText s
    | .error _ => .fault .intParsing
  | _ => .fault .intType

def boolOfWord? (s : String) : Option Bool :=
  let word := String.ofList (s.toList.map Char.toLower)
  if ["1", "on", "t", "true", "y", "yes"].contains word then some true
  else if ["0", "off", "f", "false", "n", "no"].contains word then some false
  else none

def asBool (v : Value) : Checked Bool :=
  let ofText (s : String) : Checked Bool :=
    match boolOfWord? s with
    | some b => .valid b
    | none => .fault .boolParsing
  match v.opened with
  | bool b => .valid b
  | text s => ofText s
  | bytes b =>
    match Text.Utf8.decode b with
    | .ok s => ofText s
    | .error _ => .fault .boolParsing
  | int n =>
    if n = 0 then .valid false
    else if n = 1 then .valid true
    else if -wordBound ≤ n ∧ n < wordBound then .fault .boolParsing
    else .fault .boolType
  | float x =>
    match Decimal.integer? x with
    | some 0 => .valid false
    | some 1 => .valid true
    | _ => .fault .boolType
  | _ => .fault .boolType

def asAny (v : Value) : Checked Value := .valid v

def asOptional (check : Value → Checked α) (v : Value) : Checked (Option α) :=
  match v with
  | null => .valid none
  | v => some <$> check v

def asList (check : Value → Checked α) (v : Value) : Checked (List α) :=
  match v.opened with
  | list items | tuple items | set items => Checked.all check 0 items
  | _ => .fault .listType

def asEntries (check : Value → Checked α) : List (Value × Value) → Checked (List (String × α))
  | [] => .valid []
  | (k, v) :: rest =>
    let step := k.keyStep
    let key := (k.asText.under (.name "[key]")).under step
    (fun name value rest => (name, value) :: rest) <$> key <*> (check v).under step <*>
      asEntries check rest

def asSection (check : Value → Checked α) (v : Value) : Checked (Section α) :=
  match v.opened with
  | map entries => Section.ofList <$> asEntries check entries
  | _ => .fault .mapType

/-- A record with named fields; names that the record does not have are passed over. -/
def asRecord (check : List (Value × Value) → Checked α) (v : Value) : Checked α :=
  match v.opened with
  | map entries => check entries
  | _ => .fault .recordType

def field (entries : List (Value × Value)) (name : String) (default_ : α)
    (check : Value → Checked α) : Checked α :=
  match find? name entries with
  | some v => (check v).under (.name name)
  | none => .valid default_

def requiredField (entries : List (Value × Value)) (name : String)
    (check : Value → Checked α) : Checked α :=
  match find? name entries with
  | some v => (check v).under (.name name)
  | none => (Checked.fault .missing).under (.name name)

def orIfNull (other : Value) (check : Value → Checked α) (v : Value) : Checked α :=
  match v with
  | null => check other
  | v => check v

end Value

end PluginCompiler
