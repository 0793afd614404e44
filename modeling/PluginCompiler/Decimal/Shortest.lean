import PluginCompiler.Decimal.Binary

/-! The shortest decimal text of a floating-point number: the fewest digits that read back as the
same number, and of those the nearest. -/

set_option autoImplicit false

namespace PluginCompiler.Decimal

/-- The positive number `mantissa · 2 ^ exponent`, four times over, between its neighbours' midpoints. -/
structure Interval where
  low : Nat
  value : Nat
  high : Nat
  /-- The ends themselves read back as the number. -/
  closed : Bool

def interval (mantissa : Nat) (exponent : Int) : Interval :=
  let lowest := mantissa = normalBit ∧ exponent ≠ -1074
  { low := 4 * mantissa - (if lowest then 1 else 2)
    value := 4 * mantissa
    high := 4 * mantissa + 2
    closed := mantissa % 2 == 0 }

def Interval.holds (i : Interval) (num den d : Nat) : Bool :=
  if i.closed then i.low * num ≤ d * den && d * den ≤ i.high * num
  else i.low * num < d * den && d * den < i.high * num

/-- The multiple of `10 ^ e` in the interval that is nearest to the value, if there is one. The unit
of the interval is `2 ^ q`. -/
def Interval.onGrid (i : Interval) (q e : Int) : Option Nat :=
  let (up, down) := power 2 q
  let (tens, tenths) := power 10 e
  let num := up * tenths
  let den := down * tens
  let below := i.value * num / den
  let above := below + 1
  match i.holds num den below, i.holds num den above with
  | false, false => none
  | true, false => some below
  | false, true => some above
  -- Both neighbours read back: the nearer one, or the even one of two that are as near.
  | true, true =>
    let short := i.value * num - below * den
    let long := above * den - i.value * num
    if short < long then some below
    else if long < short then some above
    else some (below + below % 2)

/-- From the coarsest grid down; the first grid with a hit has the fewest digits. -/
def Interval.search (i : Interval) (q : Int) : Nat → Int → Nat × Int
  | 0, e => (0, e)
  | fuel + 1, e =>
    match i.onGrid q e with
    | some d => (d, e)
    | none => i.search q fuel (e - 1)

/-- Digits and decimal exponent of a positive number. Seventeen digits always read back; the other
steps make up for the estimate of the coarsest grid. -/
def shortest (mantissa : Nat) (exponent : Int) : Nat × Int :=
  let top : Int := ((mantissa.log2 : Int) + 1 + exponent) * 30103 / 100000 + 1
  (interval mantissa exponent).search (exponent - 2) 24 top

def positionalFrom : Int := -4

def positionalBelow : Int := 16

def exponentText (e : Int) : List Char :=
  let digits := Nat.toDigits 10 e.natAbs
  (if e < 0 then '-' else '+') :: (if digits.length < 2 then '0' :: digits else digits)

def layOut (d : Nat) (e : Int) : List Char :=
  let digits := Nat.toDigits 10 d
  let lead : Int := e + digits.length - 1
  if lead < positionalFrom ∨ positionalBelow ≤ lead then
    let fraction := digits.drop 1
    digits.take 1 ++ (if fraction.isEmpty then [] else '.' :: fraction) ++ 'e' :: exponentText lead
  else if lead < 0 then
    '0' :: '.' :: List.replicate (lead.natAbs - 1) '0' ++ digits
  else if 0 ≤ e then
    digits ++ List.replicate e.toNat '0' ++ ['.', '0']
  else
    digits.take (lead.toNat + 1) ++ '.' :: digits.drop (lead.toNat + 1)

def floatText (x : Float) : String :=
  match reading x with
  | .nan => "nan"
  | .infinite negative => if negative then "-inf" else "inf"
  | .finite negative m e =>
    let body := if m = 0 then ['0', '.', '0'] else let (d, e) := shortest m e; layOut d e
    String.ofList (if negative then '-' :: body else body)

end PluginCompiler.Decimal
