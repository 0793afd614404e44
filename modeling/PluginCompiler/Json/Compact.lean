import PluginCompiler.Decimal.Shortest
import PluginCompiler.Text.Digits
import PluginCompiler.Text.Printable
import PluginCompiler.Value.Basic

/-! Compact JSON: the one text of a value without any blanks, or the first reason in reading order
why it has none. -/

set_option autoImplicit false

namespace PluginCompiler

namespace Json

def escaped (c : Char) : List Char :=
  if c = '"' then ['\\', '"']
  else if c = '\\' then ['\\', '\\']
  else if c = '\n' then ['\\', 'n']
  else if c = '\r' then ['\\', 'r']
  else if c = '\t' then ['\\', 't']
  else if c = '\x0c' then ['\\', 'f']
  else if c = '\x08' then ['\\', 'b']
  else if c.toNat < 0x20 then '\\' :: 'u' :: Text.hexDigits 4 c.toNat
  else [c]

def quoteChars (cs : List Char) : List Char :=
  '"' :: cs.flatMap escaped ++ ['"']

def quote (s : String) : String :=
  String.ofList (quoteChars s.toList)

inductive Fault where
  | outOfRange
  | badKey (kind : String)
  | unsupported (kind : String)
  | circular
  | digits (fault : Text.DigitFault)
  deriving DecidableEq, Repr

def Fault.message : Fault → String
  | .outOfRange => "Out of range float values are not JSON compliant"
  | .badKey kind => s!"keys must be str, int, float, bool or None, not {kind}"
  | .unsupported kind => s!"Object of type {kind} is not JSON serializable"
  | .circular => "Circular reference detected"
  | .digits fault => fault.message

def integerText (n : Int) : Except Fault String :=
  if Text.isWritable n then .ok (toString n) else .error (.digits .writing)

def numberText (x : Float) : Except Fault String :=
  match Decimal.reading x with
  | .finite .. => .ok (Decimal.floatText x)
  | _ => .error .outOfRange

def keyKind : Value → String
  | .date _ => "datetime.date"
  | .moment _ => "datetime.datetime"
  | v => v.kindName

def key : Value → Except Fault String
  | .text s => .ok s
  | .int n => integerText n
  | .bool b => .ok (if b then "true" else "false")
  | .null => .ok "null"
  | .float x => numberText x
  | v => .error (.badKey (keyKind v))

mutual
def compactIn (around : List Nat) : Value → Except Fault String
  | .null => .ok "null"
  | .bool b => .ok (if b then "true" else "false")
  | .int n => integerText n
  | .float x => numberText x
  | .text s => .ok (quote s)
  | .list items | .tuple items => do
    return "[" ++ ",".intercalate (← compactAll around items) ++ "]"
  | .map entries => do
    return "\x7b" ++ ",".intercalate (← compactEntries around entries) ++ "\x7d"
  | .knot l body =>
    if around.contains l then .error .circular else compactIn (l :: around) body
  | .again _ => .error .circular
  | .bytes _ => .error (.unsupported "bytes")
  | .date _ => .error (.unsupported "date")
  | .moment _ => .error (.unsupported "datetime")
  | .set _ => .error (.unsupported "set")

def compactAll (around : List Nat) : List Value → Except Fault (List String)
  | [] => .ok []
  | v :: vs => do
    let first ← compactIn around v
    return first :: (← compactAll around vs)

def compactEntries (around : List Nat) : List (Value × Value) → Except Fault (List String)
  | [] => .ok []
  | (k, v) :: rest => do
    let name ← key k
    let value ← compactIn around v
    return (quote name ++ ":" ++ value) :: (← compactEntries around rest)
end

def compact (v : Value) : Except Fault String := compactIn [] v

end Json

end PluginCompiler
