/-! The tags of nodes, and the tag that the form of a plain scalar implies. -/

set_option autoImplicit false

namespace PluginCompiler.Yaml

inductive Tag where
  | str
  | int
  | float
  | bool
  | null
  | binary
  | timestamp
  | seq
  | map
  | set
  | omap
  | pairs
  /-- The key whose value stands for its mapping where a text is expected. -/
  | value
  /-- The key whose value lends its pairs to the mapping around it. -/
  | merge
  | unknown
  deriving DecidableEq, Repr, Inhabited

namespace Tag

def authority : String := "tag:yaml.org,2002:"

def names : List (String × Tag) :=
  [("str", .str), ("int", .int), ("float", .float), ("bool", .bool), ("null", .null),
   ("binary", .binary), ("timestamp", .timestamp), ("seq", .seq), ("map", .map), ("set", .set),
   ("omap", .omap), ("pairs", .pairs), ("value", .value),
   ("merge", .merge)]

def ofName (name : String) : Tag :=
  match names.find? fun (n, _) => authority ++ n == name with
  | some (_, t) => t
  | none => .unknown

def isCollection : Tag → Bool
  | seq | map | set | omap | pairs => true
  | _ => false

end Tag

namespace Form

def isOctalDigit (c : Char) : Bool := '0' ≤ c && c ≤ '7'

def isHexDigit (c : Char) : Bool :=
  c.isDigit || ('a' ≤ c && c ≤ 'f') || ('A' ≤ c && c ≤ 'F')

def spaced (p : Char → Bool) (c : Char) : Bool := p c || c == '_'

def dropSign : List Char → List Char
  | c :: cs => if c = '-' ∨ c = '+' then cs else c :: cs
  | [] => []

def nonempty (p : Char → Bool) (cs : List Char) : Bool := !cs.isEmpty && cs.all p

/-- Groups of a colon and one or two digits below 60; what follows the last of them, if there is at
least one. -/
def sixtieths? : List Char → Option (List Char)
  | ':' :: a :: b :: rest =>
    if '0' ≤ a ∧ a ≤ '5' ∧ b.isDigit then some ((sixtieths? rest).getD rest)
    else if a.isDigit then some ((sixtieths? (b :: rest)).getD (b :: rest))
    else none
  | [':', a] => if a.isDigit then some [] else none
  | _ => none

def isInt (cs : List Char) : Bool :=
  match dropSign cs with
  | '0' :: 'b' :: ds => nonempty (spaced fun c => c == '0' || c == '1') ds
  | '0' :: 'x' :: ds => nonempty (spaced isHexDigit) ds
  | '0' :: ds => ds.all (spaced isOctalDigit)
  | d :: ds =>
    d.isDigit && match sixtieths? (ds.dropWhile (spaced Char.isDigit)) with
      | some rest => rest.isEmpty
      | none => ds.all (spaced Char.isDigit)
  | [] => false

def isPower : List Char → Bool
  | [] => true
  | e :: s :: ds => (e == 'e' || e == 'E') && (s == '-' || s == '+') && nonempty Char.isDigit ds
  | _ => false

def isInfinity (cs : List Char) : Bool :=
  cs == ".inf".toList || cs == ".Inf".toList || cs == ".INF".toList

def isUndefined (cs : List Char) : Bool :=
  cs == ".nan".toList || cs == ".NaN".toList || cs == ".NAN".toList

/-- Numbers with a point. A number that starts with the point has no sign. -/
def isFloat (cs : List Char) : Bool :=
  let body := dropSign cs
  let leading := match body with
    | d :: ds =>
      d.isDigit &&
        let after := ds.dropWhile (spaced Char.isDigit)
        match after with
        | '.' :: rest => isPower (rest.dropWhile (spaced Char.isDigit))
        | _ => match sixtieths? after with
          | some ('.' :: rest) => rest.all (spaced Char.isDigit)
          | _ => false
    | [] => false
  let pointed := match cs with
    | '.' :: d :: ds => d.isDigit && isPower (ds.dropWhile (spaced Char.isDigit))
    | _ => false
  leading || pointed || isInfinity body || isUndefined cs

def boolWords : List String :=
  ["yes", "Yes", "YES", "no", "No", "NO", "true", "True", "TRUE", "false", "False", "FALSE",
   "on", "On", "ON", "off", "Off", "OFF"]

def nullWords : List String := ["~", "null", "Null", "NULL"]

/-- The parts of a time of day. `zone` is the distance from universal time in seconds. -/
structure Clock where
  hour : Nat
  minute : Nat
  second : Nat
  micro : Nat
  zone : Option Int
  deriving DecidableEq, Repr

structure Stamp where
  year : Nat
  month : Nat
  day : Nat
  /-- Whether month and day both have two digits. -/
  isPadded : Bool
  clock : Option Clock
  deriving DecidableEq, Repr

def digit (c : Char) : Nat := c.toNat - 0x30

def twoDigits? : List Char → Option (Nat × List Char)
  | a :: b :: rest => if a.isDigit && b.isDigit then some (digit a * 10 + digit b, rest) else none
  | _ => none

def upToTwo? : List Char → Option (Nat × Bool × List Char)
  | a :: b :: rest =>
    if a.isDigit then
      if b.isDigit then some (digit a * 10 + digit b, true, rest) else some (digit a, false, b :: rest)
    else none
  | [a] => if a.isDigit then some (digit a, false, []) else none
  | [] => none

def expect? (c : Char) : List Char → Option (List Char)
  | d :: rest => if d = c then some rest else none
  | [] => none

/-- Six digits of a fraction: more are cut off, missing ones are zero. -/
def micros (ds : List Char) : Nat :=
  ((ds ++ List.replicate 6 '0').take 6).foldl (fun n c => n * 10 + digit c) 0

def isGap (c : Char) : Bool := c == ' ' || c == '\t'

def zone? (cs : List Char) : Option (Option Int) :=
  if cs.isEmpty then some none
  else match cs.dropWhile isGap with
    | ['Z'] => some (some 0)
    | s :: rest =>
      if s = '+' ∨ s = '-' then do
        let (hours, _, rest) ← upToTwo? rest
        let minutes ← match rest with
          | [] => some 0
          | rest => do
            let (m, rest) ← twoDigits? (← expect? ':' rest)
            if rest.isEmpty then some m else none
        let seconds : Int := hours * 3600 + minutes * 60
        return some (if s = '-' then -seconds else seconds)
      else none
    | [] => none

def clock? (cs : List Char) : Option Clock := do
  let (hour, _, rest) ← upToTwo? cs
  let (minute, rest) ← twoDigits? (← expect? ':' rest)
  let (second, rest) ← twoDigits? (← expect? ':' rest)
  let (places, rest) := match rest with
    | '.' :: rest => rest.span Char.isDigit
    | rest => ([], rest)
  let zone ← zone? rest
  return ⟨hour, minute, second, micros places, zone⟩

/-- A date, alone or with a time after the letter T or after blanks. -/
def stamp? (cs : List Char) : Option Stamp := do
  let (century, rest) ← twoDigits? cs
  let (year, rest) ← twoDigits? rest
  let (month, monthFull, rest) ← upToTwo? (← expect? '-' rest)
  let (day, dayFull, rest) ← upToTwo? (← expect? '-' rest)
  let date : Stamp := ⟨century * 100 + year, month, day, monthFull && dayFull, none⟩
  match rest with
  | [] => return date
  | c :: rest =>
    let body ←
      if c = 'T' ∨ c = 't' then some rest else if isGap c then some (rest.dropWhile isGap) else none
    return { date with clock := some (← clock? body) }

/-- One line feed at the end of a text does not count. -/
def chomp (cs : List Char) : List Char :=
  match cs.reverse with
  | '\n' :: rest => rest.reverse
  | _ => cs

def isTimestamp (cs : List Char) : Bool :=
  match stamp? cs with
  | some s => s.clock.isSome || s.isPadded
  | none => false

/-- The signs that are tagged for a special use which nothing here has. -/
def isSpecial (cs : List Char) : Bool := cs == ['!'] || cs == ['&'] || cs == ['*']

end Form

def Tag.ofForm (text : String) : Tag :=
  if text = "" then .null
  else
    let cs := Form.chomp text.toList
    let s := String.ofList cs
    if cs = [] then .str
    else if Form.boolWords.contains s then .bool
    else if Form.isFloat cs then .float
    else if Form.isInt cs then .int
    else if Form.nullWords.contains s then .null
    else if Form.isTimestamp cs then .timestamp
    else if cs = ['='] then .value
    else if cs = ['<', '<'] then .merge
    else if Form.isSpecial cs then .unknown
    else .str

end PluginCompiler.Yaml
