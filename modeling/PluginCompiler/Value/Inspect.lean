import PluginCompiler.Decimal.Shortest
import PluginCompiler.Text.Digits
import PluginCompiler.Text.Printable
import PluginCompiler.Value.Basic

/-! The text of a value inside a message. A container that is being shown already is shown as an
ellipsis. -/

set_option autoImplicit false

namespace PluginCompiler

/-- A span of seconds as whole days and the seconds left over; days may be negative. -/
def spanText (seconds : Int) : String :=
  let days := seconds.fdiv 86400
  let rest := seconds.fmod 86400
  if seconds = 0 then "datetime.timedelta(0)"
  else if rest = 0 then s!"datetime.timedelta(days={days})"
  else if days = 0 then s!"datetime.timedelta(seconds={rest})"
  else s!"datetime.timedelta(days={days}, seconds={rest})"

def Date.shown (d : Date) : String :=
  s!"datetime.date({d.year}, {d.month}, {d.day})"

/-- Seconds are left out when they and the microseconds are zero. -/
def Moment.shown (m : Moment) : String :=
  let fields := [m.date.year, m.date.month, m.date.day, m.hour, m.minute] ++
    (if m.micro ≠ 0 then [m.second, m.micro] else if m.second ≠ 0 then [m.second] else [])
  let zone := match m.offset with
    | none => ""
    | some seconds =>
      if seconds = 0 then ", tzinfo=datetime.timezone.utc"
      else s!", tzinfo=datetime.timezone({spanText seconds})"
  "datetime.datetime(" ++ ", ".intercalate (fields.map toString) ++ zone ++ ")"

namespace Value

def ellipsis : Value → String
  | list _ => "[...]"
  | tuple _ => "(...)"
  | set _ => "set(...)"
  | _ => "\x7b...\x7d"

def braced (body : String) : String := "\x7b" ++ body ++ "\x7d"

mutual
def shownIn (around : List (Nat × String)) : Value → String
  | null => "None"
  | bool b => if b then "True" else "False"
  | int n => toString n
  | float x => Decimal.floatText x
  | text s => Text.shown s
  | bytes b => Text.shownBytes b
  | date d => d.shown
  | moment m => m.shown
  | list items => "[" ++ ", ".intercalate (shownAll around items) ++ "]"
  | tuple items =>
    match shownAll around items with
    | [one] => "(" ++ one ++ ",)"
    | texts => "(" ++ ", ".intercalate texts ++ ")"
  | set items =>
    match shownAll around items with
    | [] => "set()"
    | texts => braced (", ".intercalate texts)
  | map entries => braced (", ".intercalate (shownEntries around entries))
  | knot l body =>
    match around.lookup l with
    | some dots => dots
    | none => shownIn ((l, ellipsis body) :: around) body
  | again l => (around.lookup l).getD "..."

def shownAll (around : List (Nat × String)) : List Value → List String
  | [] => []
  | v :: vs => shownIn around v :: shownAll around vs

def shownEntries (around : List (Nat × String)) : List (Value × Value) → List String
  | [] => []
  | (k, v) :: rest =>
    (shownIn around k ++ ": " ++ shownIn around v) :: shownEntries around rest
end

def shown (v : Value) : String := shownIn [] v

mutual
def isWritable : Value → Bool
  | int n => Text.isWritable n
  | list items | tuple items | set items => allWritable items
  | map entries => entriesWritable entries
  | knot _ body => isWritable body
  | _ => true

def allWritable : List Value → Bool
  | [] => true
  | v :: vs => isWritable v && allWritable vs

def entriesWritable : List (Value × Value) → Bool
  | [] => true
  | (k, v) :: rest => isWritable k && isWritable v && entriesWritable rest
end

/-- The text of a value on its own: texts and times stand without quotes or names. -/
def plain (v : Value) : String :=
  match v with
  | text s => s
  | date d => d.text
  | moment m => m.text " "
  | v => v.shown

end Value

end PluginCompiler
