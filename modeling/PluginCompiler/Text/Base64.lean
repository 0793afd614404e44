/-! The base-64 alphabet. Reading is lenient: characters outside the alphabet are passed over, and
padding that completes a group ends the text. -/

set_option autoImplicit false

namespace PluginCompiler.Text.Base64

def letter (n : Nat) : Char :=
  if n < 26 then Char.ofNat (0x41 + n)
  else if n < 52 then Char.ofNat (0x61 + (n - 26))
  else if n < 62 then Char.ofNat (0x30 + (n - 52))
  else if n = 62 then '+' else '/'

def value? (c : Char) : Option Nat :=
  if c.isUpper then some (c.toNat - 0x41)
  else if c.isLower then some (c.toNat - 0x61 + 26)
  else if c.isDigit then some (c.toNat - 0x30 + 52)
  else if c = '+' then some 62
  else if c = '/' then some 63
  else none

def encode : List UInt8 → List Char
  | [] => []
  | [a] => [letter (a.toNat / 4), letter (a.toNat % 4 * 16), '=', '=']
  | [a, b] =>
    [letter (a.toNat / 4), letter (a.toNat % 4 * 16 + b.toNat / 16), letter (b.toNat % 16 * 4), '=']
  | a :: b :: c :: rest =>
    letter (a.toNat / 4) :: letter (a.toNat % 4 * 16 + b.toNat / 16) ::
      letter (b.toNat % 16 * 4 + c.toNat / 64) :: letter (c.toNat % 64) :: encode rest

/-- Reading with the letters of the current group in `group` letters and `carry` left-over bits,
and `pads` padding signs since the last letter. The result is `none` when a group is left open. -/
def decodeFrom (group carry pads : Nat) : List UInt8 → List Char → Option (List UInt8)
  | done, [] => if group = 0 then some done.reverse else none
  | done, c :: cs =>
    if c = '=' then
      if group ≥ 2 then
        if group + pads + 1 ≥ 4 then some done.reverse else decodeFrom group carry (pads + 1) done cs
      else decodeFrom group carry pads done cs
    else match value? c with
      | none => decodeFrom group carry pads done cs
      | some v =>
        match group with
        | 0 => decodeFrom 1 v 0 done cs
        | 1 => decodeFrom 2 (v % 16) 0 (UInt8.ofNat (carry * 4 + v / 16) :: done) cs
        | 2 => decodeFrom 3 (v % 4) 0 (UInt8.ofNat (carry * 16 + v / 4) :: done) cs
        | _ => decodeFrom 0 0 0 (UInt8.ofNat (carry * 64 + v) :: done) cs

def decode? (cs : List Char) : Option (List UInt8) :=
  decodeFrom 0 0 0 [] cs

end PluginCompiler.Text.Base64
