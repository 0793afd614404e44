import PluginCompiler.Decimal.Binary
import PluginCompiler.Text.Digits

/-! Reading of decimal numerals. -/

set_option autoImplicit false

namespace PluginCompiler.Decimal

open PluginCompiler.Text (decimalDigit? isNumberBlank trimBy)

/-- Leading digits: their count, their value after `acc`, and what follows. -/
def takeDigits : Nat → Nat → List Char → Nat × Nat × List Char
  | count, acc, [] => (count, acc, [])
  | count, acc, c :: cs =>
    match decimalDigit? c with
    | some d => takeDigits (count + 1) (acc * 10 + d) cs
    | none => (count, acc, c :: cs)

def exponent? : List Char → Option Int
  | [] => some 0
  | c :: cs =>
    if c = 'e' ∨ c = 'E' then
      let (negative, cs) := match cs with
        | '-' :: rest => (true, rest)
        | '+' :: rest => (false, rest)
        | rest => (false, rest)
      match takeDigits 0 0 cs with
      | (0, _, _) => none
      | (_, n, []) => some (if negative then -(n : Int) else n)
      | _ => none
    else none

def unsigned? (negative : Bool) (cs : List Char) : Option Float :=
  let (whole, m, rest) := takeDigits 0 0 cs
  let (places, m, rest) := match rest with
    | '.' :: rest => takeDigits 0 m rest
    | rest => (0, m, rest)
  if whole + places = 0 then none
  else (exponent? rest).map fun e => ofScientific negative m (e - places)

def infinity (negative : Bool) : Float :=
  if negative then -1.0 / 0.0 else 1.0 / 0.0

def notANumber : Float := 0.0 / 0.0

/-- A numeral with an optional sign and blanks around it, or the name of infinity or of the
undefined value in any case of letters. -/
def read? (cs : List Char) : Option Float :=
  let (negative, body) := match trimBy isNumberBlank cs with
    | '-' :: rest => (true, rest)
    | '+' :: rest => (false, rest)
    | rest => (false, rest)
  let name := String.ofList (body.map Char.toLower)
  if name = "inf" ∨ name = "infinity" then some (infinity negative)
  else if name = "nan" then some notANumber
  else unsigned? negative body

end PluginCompiler.Decimal
