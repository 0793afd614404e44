/-! Decoding of UTF-8. A failure names the bytes at fault: those of the longest beginning of a
character that the text holds at that place. -/

set_option autoImplicit false

namespace PluginCompiler.Text.Utf8

inductive Fault where
  | invalidStart
  | invalidContinuation
  | unexpectedEnd
  deriving DecidableEq, Repr

def Fault.message : Fault → String
  | .invalidStart => "invalid start byte"
  | .invalidContinuation => "invalid continuation byte"
  | .unexpectedEnd => "unexpected end of data"

/-- Where decoding failed: the first byte at fault, its position, and how many bytes are at fault. -/
structure DecodeError where
  lead : UInt8
  position : Nat
  width : Nat
  fault : Fault
  deriving DecidableEq, Repr

def hexByte (b : UInt8) : String :=
  String.ofList [Nat.digitChar (b.toNat / 16), Nat.digitChar (b.toNat % 16)]

def DecodeError.message (e : DecodeError) : String :=
  if e.width = 1 then
    s!"'utf-8' codec can't decode byte 0x{hexByte e.lead} in position {e.position}: {e.fault.message}"
  else
    s!"'utf-8' codec can't decode bytes in position {e.position}-{e.position + e.width - 1}: {e.fault.message}"

/-- A character of which at least one more byte is owed. -/
structure Partial where
  lead : UInt8
  start : Nat
  value : Nat
  more : Nat
  low : Nat
  high : Nat

/-- What a first byte promises: the bits it carries, the bytes owed after the next one, and the
bounds of the next one. Overlong forms, surrogates and values past the last code point are shut out
by the bounds. -/
def promise? (b : Nat) : Option (Nat × Nat × Nat × Nat) :=
  if b < 0xC2 then none
  else if b < 0xE0 then some (b - 0xC0, 0, 0x80, 0xBF)
  else if b = 0xE0 then some (0, 1, 0xA0, 0xBF)
  else if b = 0xED then some (0xD, 1, 0x80, 0x9F)
  else if b < 0xF0 then some (b - 0xE0, 1, 0x80, 0xBF)
  else if b = 0xF0 then some (0, 2, 0x90, 0xBF)
  else if b < 0xF4 then some (b - 0xF0, 2, 0x80, 0xBF)
  else if b = 0xF4 then some (4, 2, 0x80, 0x8F)
  else none

def decodeFrom : Nat → Option Partial → List Char → List UInt8 → Except DecodeError (List Char)
  | _, none, done, [] => .ok done.reverse
  | position, some p, _, [] => .error ⟨p.lead, p.start, position - p.start, .unexpectedEnd⟩
  | position, none, done, b :: bs =>
    if b.toNat < 0x80 then decodeFrom (position + 1) none (Char.ofNat b.toNat :: done) bs
    else match promise? b.toNat with
      | none => .error ⟨b, position, 1, .invalidStart⟩
      | some (value, more, low, high) =>
        decodeFrom (position + 1) (some ⟨b, position, value, more, low, high⟩) done bs
  | position, some p, done, b :: bs =>
    if p.low ≤ b.toNat ∧ b.toNat ≤ p.high then
      let value := p.value * 64 + (b.toNat - 0x80)
      match p.more with
      | 0 => decodeFrom (position + 1) none (Char.ofNat value :: done) bs
      | more + 1 =>
        decodeFrom (position + 1) (some ⟨p.lead, p.start, value, more, 0x80, 0xBF⟩) done bs
    else .error ⟨p.lead, p.start, position - p.start, .invalidContinuation⟩

def decodeChars (bytes : List UInt8) : Except DecodeError (List Char) :=
  decodeFrom 0 none [] bytes

def decode (bytes : List UInt8) : Except DecodeError String :=
  (decodeChars bytes).map String.ofList

def encode (s : String) : List UInt8 :=
  s.toUTF8.data.toList

end PluginCompiler.Text.Utf8
