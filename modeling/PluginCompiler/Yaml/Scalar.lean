import PluginCompiler.Decimal.Numeral
import PluginCompiler.Text.Base64
import PluginCompiler.Text.LowerCase
import PluginCompiler.Value.Inspect
import PluginCompiler.Yaml.Node

/-! The values of texts under their tags. -/

set_option autoImplicit false

namespace PluginCompiler.Yaml

inductive ValueFault where
  | malformed
  | emptyNumber
  | notInteger (base : Nat) (text : String)
  | digits (fault : Text.DigitFault)
  | notFloat (text : String)
  | notBool (text : String)
  | notTimestamp
  | timestampOfNodes
  | calendar (fault : CalendarFault)
  /-- A distance from universal time of a day or more, in seconds. -/
  | zone (seconds : Int)
  | tooManyPlaces
  /-- A mapping's tag on a sequence, with the kind of its first entry. -/
  | pairOfNode (kind : String)
  | pairOfText
  deriving DecidableEq, Repr

def ValueFault.message : ValueFault → String
  | .malformed => "Invalid YAML"
  | .emptyNumber => "string index out of range"
  | .notInteger base text =>
    let quoted := String.ofList ((Text.shown text).toList.take 200)
    s!"invalid literal for int() with base {base}: {quoted}"
  | .digits fault => fault.message
  | .notFloat text => s!"could not convert string to float: {Text.shown text}"
  | .notBool text => Text.shown text
  | .notTimestamp => "'NoneType' object has no attribute 'groupdict'"
  | .timestampOfNodes => "expected string or bytes-like object, got 'list'"
  | .calendar fault => fault.message
  | .zone seconds =>
    "offset must be a timedelta strictly between -timedelta(hours=24) and timedelta(hours=24), not " ++
      spanText seconds ++ "."
  | .tooManyPlaces => "int too large to convert to float"
  | .pairOfNode kind => s!"cannot unpack non-iterable {kind} object"
  | .pairOfText => "not enough values to unpack (expected 2, got 1)"

def colonParts : List Char → List (List Char)
  | [] => [[]]
  | c :: cs =>
    match colonParts cs with
    | [] => [[c]]
    | part :: parts => if c = ':' then [] :: part :: parts else (c :: part) :: parts

/-- Only decimal digits are limited. -/
def readInt (base : Nat) (cs : List Char) : Except ValueFault Int :=
  match (if base = 10 then Text.excessDigits? cs else none), Text.readInt? base cs with
  | some count, _ => .error (.digits (.reading count))
  | none, some n => .ok n
  | none, none => .error (.notInteger base (String.ofList cs))

def withoutUnderscores (text : String) : List Char := text.toList.filter (· != '_')

def splitSign (cs : List Char) : Except ValueFault (Bool × List Char) :=
  match cs with
  | [] => .error .emptyNumber
  | '-' :: rest => .ok (true, rest)
  | '+' :: rest => .ok (false, rest)
  | rest => .ok (false, rest)

def intOfText (text : String) : Except ValueFault Int := do
  let (negative, cs) ← splitSign (withoutUnderscores text)
  let n ← match cs with
    | [] => throw .emptyNumber
    | ['0'] => pure 0
    | '0' :: 'b' :: ds => readInt 2 ds
    | '0' :: 'x' :: ds => readInt 16 ds
    | '0' :: _ => readInt 8 cs
    | _ =>
      if cs.contains ':' then do
        let places ← (colonParts cs).mapM (readInt 10)
        pure (places.foldl (fun n d => n * 60 + d) 0)
      else readInt 10 cs
  return if negative then -n else n

def readFloat (cs : List Char) : Except ValueFault Float :=
  match Decimal.read? cs with
  | some x => .ok x
  | none => .error (.notFloat (String.ofList cs))

/-- A sum over the places of a base-60 number, the last place first. Each place counts sixty times
the one before it, exactly, and the products and sums are rounded. -/
def sumPlaces : Nat → Float → List Float → Except ValueFault Float
  | _, sum, [] => .ok sum
  | unit, sum, d :: ds =>
    let scale := Decimal.nearest false unit 1
    if Decimal.reading scale = .infinite false then .error .tooManyPlaces
    else sumPlaces (unit * 60) (sum + d * scale) ds

def floatOfText (text : String) : Except ValueFault Float := do
  let (negative, cs) ← splitSign (Text.lowerFrom [] (withoutUnderscores text))
  let sign : Float := if negative then -1.0 else 1.0
  if cs = ".inf".toList then return sign * Decimal.infinity false
  else if cs = ".nan".toList then return Decimal.notANumber
  else if cs.contains ':' then
    let places ← (colonParts cs).mapM readFloat
    return sign * (← sumPlaces 1 0.0 places.reverse)
  else return sign * (← readFloat cs)

def boolOfText (text : String) : Except ValueFault Bool :=
  let word := Text.lower text
  if ["yes", "true", "on"].contains word then .ok true
  else if ["no", "false", "off"].contains word then .ok false
  else .error (.notBool word)

def binaryOfText (text : String) : Except ValueFault (List UInt8) :=
  if text.toList.all fun c => c.toNat < 0x80 then
    match Text.Base64.decode? text.toList with
    | some bytes => .ok bytes
    | none => .error .malformed
  else .error .malformed

/-- The zone is looked at before date and time. -/
def timeOfText (text : String) : Except ValueFault Value :=
  match Form.stamp? (Form.chomp text.toList) with
  | none => .error .notTimestamp
  | some s =>
    let date := (Date.of s.year s.month s.day).mapError ValueFault.calendar
    match s.clock with
    | none => date.map Value.date
    | some c =>
      match c.zone with
      | some seconds =>
        if 86400 ≤ seconds.natAbs then .error (.zone seconds)
        else do
          let m ← (Moment.of (← date) c.hour c.minute c.second c.micro c.zone).mapError .calendar
          return .moment m
      | none => do
        let m ← (Moment.of (← date) c.hour c.minute c.second c.micro none).mapError .calendar
        return .moment m

def Tag.read (t : Tag) (text : String) : Except ValueFault Value :=
  match t with
  | .str => .ok (.text text)
  | .null => .ok .null
  | .int => (intOfText text).map Value.int
  | .float => (floatOfText text).map Value.float
  | .bool => (boolOfText text).map Value.bool
  | .binary => (binaryOfText text).map Value.bytes
  | .timestamp => timeOfText text
  | _ => .error .malformed

/-- Whether a number is the one undefined number that all untagged ones share. -/
def isSharedUndefined (text : String) : Bool :=
  match splitSign (Text.lowerFrom [] (withoutUnderscores text)) with
  | .ok (_, cs) => cs == ".nan".toList
  | .error _ => false

end PluginCompiler.Yaml
