/-! Dates of the Gregorian calendar from year 1 to year 9999, and moments of a day with an optional
distance from universal time. -/

set_option autoImplicit false

namespace PluginCompiler

inductive CalendarFault where
  | year (year : Nat)
  | month
  | day
  | hour
  | minute
  | second
  deriving DecidableEq, Repr

def CalendarFault.message : CalendarFault → String
  | .year y => s!"year {y} is out of range"
  | .month => "month must be in 1..12"
  | .day => "day is out of range for month"
  | .hour => "hour must be in 0..23"
  | .minute => "minute must be in 0..59"
  | .second => "second must be in 0..59"

def isLeapYear (y : Nat) : Bool :=
  y % 4 == 0 && (y % 100 != 0 || y % 400 == 0)

def daysInMonth (y m : Nat) : Nat :=
  if m = 2 then (if isLeapYear y then 29 else 28)
  else if m = 4 ∨ m = 6 ∨ m = 9 ∨ m = 11 then 30
  else 31

structure Date where
  year : Nat
  month : Nat
  day : Nat
  deriving DecidableEq, Repr

/-- A date of the calendar; of several faults the leftmost is reported. -/
def Date.of (year month day : Nat) : Except CalendarFault Date :=
  if year = 0 ∨ 9999 < year then .error (.year year)
  else if month = 0 ∨ 12 < month then .error .month
  else if day = 0 ∨ daysInMonth year month < day then .error .day
  else .ok ⟨year, month, day⟩

def daysBeforeYear (y : Nat) : Nat :=
  let n := y - 1
  n * 365 + n / 4 - n / 100 + n / 400

def daysBeforeMonth (y : Nat) (m : Nat) : Nat :=
  (List.range (m - 1)).foldl (fun days i => days + daysInMonth y (i + 1)) 0

def Date.ordinal (d : Date) : Nat :=
  daysBeforeYear d.year + daysBeforeMonth d.year d.month + d.day

/-- A time of a day. `offset` is its distance from universal time in seconds, if known. -/
structure Moment where
  date : Date
  hour : Nat
  minute : Nat
  second : Nat
  micro : Nat
  offset : Option Int
  deriving DecidableEq, Repr

def Moment.of (date : Date) (hour minute second micro : Nat) (offset : Option Int) :
    Except CalendarFault Moment :=
  if 23 < hour then .error .hour
  else if 59 < minute then .error .minute
  else if 59 < second then .error .second
  else .ok ⟨date, hour, minute, second, micro, offset⟩

/-- Microseconds since the start of the calendar, by the moment's own clock. -/
def Moment.clock (m : Moment) : Int :=
  (((m.date.ordinal * 24 + m.hour) * 60 + m.minute) * 60 + m.second) * 1000000 + m.micro

/-- Moments with a known distance from universal time are the same when they happen together; one
with and one without are never the same. -/
def Moment.same (a b : Moment) : Bool :=
  match a.offset, b.offset with
  | none, none => a.clock == b.clock
  | some x, some y => a.clock - x * 1000000 == b.clock - y * 1000000
  | _, _ => false

def padded (width n : Nat) : String :=
  let digits := Nat.toDigits 10 n
  String.ofList (List.replicate (width - digits.length) '0' ++ digits)

def Date.text (d : Date) : String :=
  s!"{padded 4 d.year}-{padded 2 d.month}-{padded 2 d.day}"

def offsetText (seconds : Int) : String :=
  let n := seconds.natAbs
  let sign := if seconds < 0 then "-" else "+"
  let rest := if n % 60 = 0 then "" else ":" ++ padded 2 (n % 60)
  s!"{sign}{padded 2 (n / 3600)}:{padded 2 (n / 60 % 60)}{rest}"

/-- Date and time with `between` between them; a fraction has six digits or is left out. -/
def Moment.text (m : Moment) (between : String) : String :=
  let fraction := if m.micro = 0 then "" else "." ++ padded 6 m.micro
  let offset := match m.offset with
    | none => ""
    | some seconds => offsetText seconds
  s!"{m.date.text}{between}{padded 2 m.hour}:{padded 2 m.minute}:{padded 2 m.second}{fraction}{offset}"

end PluginCompiler
