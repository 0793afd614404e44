import PluginCompiler.Calendar
import PluginCompiler.Decimal.Binary

/-! The data that documents and configuration files hold. A container that contains itself is a
`knot`: its label stands for it wherever it occurs again below. -/

set_option autoImplicit false

namespace PluginCompiler

inductive Value where
  | null
  | bool (b : Bool)
  | int (n : Int)
  | float (x : Float)
  | text (s : String)
  | bytes (b : List UInt8)
  | date (d : Date)
  | moment (m : Moment)
  | list (items : List Value)
  | tuple (items : List Value)
  | set (items : List Value)
  | map (entries : List (Value × Value))
  | knot (label : Nat) (body : Value)
  | again (label : Nat)
  deriving Inhabited

namespace Value

mutual
def replace (label : Nat) (by_ : Value) : Value → Value
  | list items => list (replaceAll label by_ items)
  | tuple items => tuple (replaceAll label by_ items)
  | set items => set (replaceAll label by_ items)
  | map entries => map (replaceEntries label by_ entries)
  | knot l body => knot l (replace label by_ body)
  | again l => if l = label then by_ else again l
  | v => v

def replaceAll (label : Nat) (by_ : Value) : List Value → List Value
  | [] => []
  | v :: vs => replace label by_ v :: replaceAll label by_ vs

def replaceEntries (label : Nat) (by_ : Value) : List (Value × Value) → List (Value × Value)
  | [] => []
  | (k, v) :: rest => (replace label by_ k, replace label by_ v) :: replaceEntries label by_ rest
end

/-- A value whose outermost constructor says what it is: a knot gives its body, in which the
label is tied again. -/
def opened : Value → Value
  | knot l body => replace l (knot l body) body
  | v => v

def kindName : Value → String
  | null => "NoneType"
  | bool _ => "bool"
  | int _ => "int"
  | float _ => "float"
  | text _ => "str"
  | bytes _ => "bytes"
  | date _ => "date"
  | moment _ => "datetime"
  | list _ => "list"
  | tuple _ => "tuple"
  | set _ => "set"
  | map _ => "dict"
  | knot _ body => body.kindName
  | again _ => "dict"

/-- Zero, emptiness and absence count as false. -/
def isTruthy (v : Value) : Bool :=
  match v.opened with
  | null => false
  | bool b => b
  | int n => n != 0
  | float x => Decimal.integer? x != some 0
  | text s => s != ""
  | bytes b => !b.isEmpty
  | list items | tuple items | set items => !items.isEmpty
  | map entries => !entries.isEmpty
  | _ => true

/-- The exact integer a number is equal to; truth values count as 0 and 1. -/
def integer? : Value → Option Int
  | bool b => some (if b then 1 else 0)
  | int n => some n
  | float x => Decimal.integer? x
  | _ => none

mutual
/-- Whether two values are the same key of a mapping. Numbers are compared by what they denote, so
`1`, `1.0` and `true` are one key; an undefined number is the same as none. Containers other than
tuples are no keys. -/
def sameKey : Value → Value → Bool
  | null, null => true
  | text a, text b => a == b
  | bytes a, bytes b => a == b
  | date a, date b => a == b
  | moment a, moment b => a.same b
  | tuple a, tuple b => sameKeys a b
  | float a, float b => a == b
  | a, b =>
    match a.integer?, b.integer? with
    | some x, some y => x == y
    | _, _ => false

def sameKeys : List Value → List Value → Bool
  | [], [] => true
  | a :: as, b :: bs => sameKey a b && sameKeys as bs
  | _, _ => false
end

/-- Entries with one more; a key that is there keeps its place and takes the new value. -/
def put (key value : Value) : List (Value × Value) → List (Value × Value)
  | [] => [(key, value)]
  | (k, v) :: rest => if sameKey k key then (k, value) :: rest else (k, v) :: put key value rest

def find? (name : String) : List (Value × Value) → Option Value
  | [] => none
  | (text k, v) :: rest => if k = name then some v else find? name rest
  | _ :: rest => find? name rest

def withEntry (v : Value) (name : String) (value : Value) : Value :=
  match v with
  | map entries => map (put (text name) value entries)
  | knot l body => knot l (body.withEntry name value)
  | v => v

end Value

end PluginCompiler
