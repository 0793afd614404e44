import PluginCompiler.Text.Blank

/-! Decimal digits of every script, and integers written in a given base. Between an integer and its
decimal digits there is no way if these are more than the limit. -/

set_option autoImplicit false

namespace PluginCompiler.Text

/-- The zeros of the decimal scripts; each is followed by its nine other digits. -/
def zeroDigits : List Nat := [
  0x30, 0x660, 0x6F0, 0x7C0, 0x966, 0x9E6, 0xA66, 0xAE6,
  0xB66, 0xBE6, 0xC66, 0xCE6, 0xD66, 0xDE6, 0xE50, 0xED0,
  0xF20, 0x1040, 0x1090, 0x17E0, 0x1810, 0x1946, 0x19D0, 0x1A80,
  0x1A90, 0x1B50, 0x1BB0, 0x1C40, 0x1C50, 0xA620, 0xA8D0, 0xA900,
  0xA9D0, 0xA9F0, 0xAA50, 0xABF0, 0xFF10, 0x104A0, 0x10D30, 0x11066,
  0x110F0, 0x11136, 0x111D0, 0x112F0, 0x11450, 0x114D0, 0x11650, 0x116C0,
  0x11730, 0x118E0, 0x11950, 0x11C50, 0x11D50, 0x11DA0, 0x16A60, 0x16AC0,
  0x16B50, 0x1D7CE, 0x1D7D8, 0x1D7E2, 0x1D7EC, 0x1D7F6, 0x1E140, 0x1E2F0,
  0x1E950, 0x1FBF0]

def decimalDigit? (c : Char) : Option Nat :=
  if c.toNat < 0x80 then
    if c.isDigit then some (c.toNat - 0x30) else none
  else
    (zeroDigits.find? fun first => first ≤ c.toNat && c.toNat < first + 10).map (c.toNat - ·)

def digitValue? (c : Char) : Option Nat :=
  match decimalDigit? c with
  | some n => some n
  | none =>
    if c.isLower then some (c.toNat - 0x61 + 10)
    else if c.isUpper then some (c.toNat - 0x41 + 10)
    else none

def digitsValue? (base : Nat) : Nat → List Char → Option Nat
  | acc, [] => some acc
  | acc, c :: cs => do
    let d ← digitValue? c
    if d < base then digitsValue? base (acc * base + d) cs else none

/-- Blanks that may surround a number: white space without the information separators. -/
def isNumberBlank (c : Char) : Bool :=
  isBlank c && !(0x1C ≤ c.toNat && c.toNat ≤ 0x1F)

/-- The letter that may follow a leading zero to announce the base. -/
def baseMark? : Nat → Option Char
  | 2 => some 'b'
  | 8 => some 'o'
  | 16 => some 'x'
  | _ => none

def dropBaseMark (base : Nat) : List Char → List Char
  | '0' :: m :: rest => if baseMark? base == some m.toLower then rest else '0' :: m :: rest
  | cs => cs

def signAndBody (cs : List Char) : Bool × List Char :=
  match trimBy isNumberBlank cs with
  | '-' :: rest => (true, rest)
  | '+' :: rest => (false, rest)
  | rest => (false, rest)

def readInt? (base : Nat) (cs : List Char) : Option Int :=
  let (negative, body) := signAndBody cs
  match dropBaseMark base body with
  | [] => none
  | digits => (digitsValue? base 0 digits).map fun n => if negative then -(n : Int) else n

def digitLimit : Nat := 4300

/-- The least number of more digits than the limit. -/
@[irreducible] def leastExcess : Nat := Nat.pow 10 digitLimit

def isWritable (n : Int) : Bool := n.natAbs < leastExcess

/-- How many decimal digits a number begins with, if these are more than can be read. What follows
them does not matter. -/
def excessDigits? (cs : List Char) : Option Nat :=
  let count := ((signAndBody cs).2.takeWhile fun c => (decimalDigit? c).isSome).length
  if digitLimit < count then some count else none

inductive DigitFault where
  | writing
  | reading (count : Nat)
  deriving DecidableEq, Repr

def DigitFault.message : DigitFault → String
  | .writing =>
    "Exceeds the limit (4300 digits) for integer string conversion; " ++
      "use sys.set_int_max_str_digits() to increase the limit"
  | .reading count =>
    s!"Exceeds the limit (4300 digits) for integer string conversion: value has {count} digits; " ++
      "use sys.set_int_max_str_digits() to increase the limit"

end PluginCompiler.Text
