/-! Finite binary floating-point numbers as exact fractions, and rounding of a fraction to the
nearest of them. All arithmetic is on natural numbers. -/

set_option autoImplicit false

namespace PluginCompiler.Decimal

/-- What a 64-bit floating-point number denotes; `finite` is `mantissa · 2 ^ exponent`. -/
inductive Reading where
  | nan
  | infinite (negative : Bool)
  | finite (negative : Bool) (mantissa : Nat) (exponent : Int)
  deriving DecidableEq, Repr

def signBit : Nat := 0x8000000000000000

/-- The least mantissa of a normal number, `2 ^ 52`. It is also the unit of the exponent. -/
def normalBit : Nat := 0x10000000000000

def topExponent : Nat := 2047

def reading (x : Float) : Reading :=
  let bits : Nat := x.toBits.toNat
  let negative := bits / signBit % 2 == 1
  let biased : Nat := bits / normalBit % (topExponent + 1)
  let fraction : Nat := bits % normalBit
  if biased = topExponent then
    if fraction = 0 then .infinite negative else .nan
  else if biased = 0 then .finite negative fraction (-1074)
  else .finite negative (normalBit + fraction) ((biased : Int) - 1075)

def power (base : Nat) (e : Int) : Nat × Nat :=
  if e < 0 then (1, Nat.pow base e.natAbs) else (Nat.pow base e.natAbs, 1)

def roundHalfEven (num den : Nat) : Nat :=
  let q := num / den
  let r := num % den
  if 2 * r < den then q
  else if den < 2 * r then q + 1
  else q + q % 2

/-- The exponent of the binade that holds `num / den`, never below that of the subnormals. -/
def binade (num den : Nat) : Int :=
  let guess : Int := (num.log2 : Int) - den.log2 - 53
  let (up, down) := power 2 guess
  let e := if num * down < 2 * normalBit * (den * up) then guess else guess + 1
  max e (-1074)

def nearest (negative : Bool) (num den : Nat) : Float :=
  let sign : Nat := if negative then signBit else 0
  if num = 0 then Float.ofBits (UInt64.ofNat sign)
  else
    let e := binade num den
    let (up, down) := power 2 e
    let m := roundHalfEven (num * down) (den * up)
    let bits : Nat := if m < normalBit then m else (e + 1075).toNat * normalBit + (m - normalBit)
    Float.ofBits (UInt64.ofNat (sign + min bits (topExponent * normalBit)))

/-- `mantissa · 10 ^ exponent`. Exponents far outside the range of the numbers are cut off first, so
that no huge power is computed. -/
def ofScientific (negative : Bool) (mantissa : Nat) (exponent : Int) : Float :=
  let size : Int := (mantissa.log2 : Int) * 3 / 10 + exponent
  if mantissa = 0 ∨ size < -400 then nearest negative 0 1
  else if 400 < size then
    Float.ofBits (UInt64.ofNat ((if negative then signBit else 0) + topExponent * normalBit))
  else
    let (up, down) := power 10 exponent
    nearest negative (mantissa * up) down

def integer? (x : Float) : Option Int :=
  match reading x with
  | .finite negative m e =>
    let (up, down) := power 2 e
    if (m * up) % down = 0 then
      let n : Int := ((m * up) / down : Nat)
      some (if negative then -n else n)
    else none
  | _ => none

def isNaN (x : Float) : Bool :=
  reading x == .nan

end PluginCompiler.Decimal
