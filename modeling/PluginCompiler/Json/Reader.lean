import PluginCompiler.Decimal.Numeral
import PluginCompiler.Value.Basic

/-! Reading of JSON. A text that is no JSON is refused at the first character where no value can go
on; the undefined number and the infinities are read by name. -/

set_option autoImplicit false

namespace PluginCompiler.Json

inductive Problem where
  | value
  | propertyName
  | colon
  | comma
  | extraData
  | unterminated
  | controlCharacter
  | escape
  | unicodeEscape
  | byteOrderMark
  deriving DecidableEq, Repr

def Problem.text : Problem → String
  | .value => "Expecting value"
  | .propertyName => "Expecting property name enclosed in double quotes"
  | .colon => "Expecting ':' delimiter"
  | .comma => "Expecting ',' delimiter"
  | .extraData => "Extra data"
  | .unterminated => "Unterminated string starting at"
  | .controlCharacter => "Invalid control character at"
  | .escape => "Invalid \\escape"
  | .unicodeEscape => "Invalid \\uXXXX escape"
  | .byteOrderMark => "Unexpected UTF-8 BOM (decode using utf-8-sig)"

structure SyntaxFault where
  problem : Problem
  position : Nat
  deriving DecidableEq, Repr

def lineColumn : Nat → List Char → Nat × Nat → Nat × Nat
  | 0, _, at_ => at_
  | _, [], at_ => at_
  | n + 1, c :: cs, (line, column) =>
    if c = '\n' then lineColumn n cs (line + 1, 1) else lineColumn n cs (line, column + 1)

inductive Refusal where
  | malformed (fault : SyntaxFault)
  | digits (fault : Text.DigitFault)
  deriving DecidableEq, Repr

def SyntaxFault.message (source : List Char) (f : SyntaxFault) : String :=
  let (line, column) := lineColumn f.position source (1, 1)
  s!"{f.problem.text}: line {line} column {column} (char {f.position})"

abbrev Progress (α : Type) := α × Nat × List Char

def skipBlanks : Nat → List Char → Nat × List Char
  | i, c :: cs =>
    if c = ' ' ∨ c = '\t' ∨ c = '\n' ∨ c = '\r' then skipBlanks (i + 1) cs else (i, c :: cs)
  | i, [] => (i, [])

def hexValue? (c : Char) : Option Nat :=
  if c.isDigit then some (c.toNat - 0x30)
  else if 'a' ≤ c ∧ c ≤ 'f' then some (c.toNat - 0x61 + 10)
  else if 'A' ≤ c ∧ c ≤ 'F' then some (c.toNat - 0x41 + 10)
  else none

def hexFour? (a b c d : Char) : Option Nat := do
  return (((← hexValue? a) * 16 + (← hexValue? b)) * 16 + (← hexValue? c)) * 16 + (← hexValue? d)

def isHighSurrogate (n : Nat) : Bool := 0xD800 ≤ n && n < 0xDC00

def isLowSurrogate (n : Nat) : Bool := 0xDC00 ≤ n && n < 0xE000

/-- A code point as a character; half of a surrogate pair becomes the replacement character. -/
def scalar (n : Nat) : Char :=
  if 0xD800 ≤ n ∧ n < 0xE000 then '\uFFFD' else Char.ofNat n

def unescape? : Char → Option Char
  | '"' => some '"'
  | '\\' => some '\\'
  | '/' => some '/'
  | 'b' => some '\x08'
  | 'f' => some '\x0c'
  | 'n' => some '\n'
  | 'r' => some '\r'
  | 't' => some '\t'
  | _ => none

/-- The rest of a string whose opening quote is at `start`. A numbered escape needs at least one
character after it. -/
def stringFrom (start : Nat) : Nat → List Char → List Char → Except SyntaxFault (Progress String)
  | _, _, [] => .error ⟨.unterminated, start⟩
  | _, _, ['\\'] => .error ⟨.unterminated, start⟩
  | i, done, '\\' :: 'u' :: a :: b :: c :: d :: next :: rest =>
    match hexFour? a b c d with
    | none => .error ⟨.unicodeEscape, i + 1⟩
    | some high =>
      match isHighSurrogate high, next, rest with
      | true, '\\', 'u' :: e :: f :: g :: h :: last :: rest =>
        match hexFour? e f g h with
        | none => .error ⟨.unicodeEscape, i + 7⟩
        | some low =>
          if isLowSurrogate low then
            let joined := 0x10000 + (high - 0xD800) * 0x400 + (low - 0xDC00)
            stringFrom start (i + 12) (scalar joined :: done) (last :: rest)
          else stringFrom start (i + 12) (scalar low :: scalar high :: done) (last :: rest)
      | _, next, rest => stringFrom start (i + 6) (scalar high :: done) (next :: rest)
  | i, _, '\\' :: 'u' :: _ => .error ⟨.unicodeEscape, i + 1⟩
  | i, done, '\\' :: c :: rest =>
    match unescape? c with
    | some e => stringFrom start (i + 2) (e :: done) rest
    | none => .error ⟨.escape, i⟩
  | i, done, c :: rest =>
    if c = '"' then .ok (String.ofList done.reverse, i + 1, rest)
    else if c.toNat < 0x20 then .error ⟨.controlCharacter, i⟩
    else stringFrom start (i + 1) (c :: done) rest

def spanDigits (cs : List Char) : List Char × List Char :=
  cs.span Char.isDigit

def fraction (cs : List Char) : List Char × List Char :=
  match cs with
  | '.' :: d :: rest =>
    if d.isDigit then
      let (digits, rest) := spanDigits rest
      ('.' :: d :: digits, rest)
    else ([], cs)
  | _ => ([], cs)

def tenPower (cs : List Char) : List Char × List Char :=
  match cs with
  | e :: rest =>
    if e = 'e' ∨ e = 'E' then
      let (sign, rest) := match rest with
        | '+' :: rest => (['+'], rest)
        | '-' :: rest => (['-'], rest)
        | rest => ([], rest)
      match spanDigits rest with
      | ([], _) => ([], cs)
      | (digits, rest) => (e :: sign ++ digits, rest)
    else ([], cs)
  | [] => ([], cs)

/-- A number of digits beyond the limit is refused as soon as it is met. -/
def integerOf (i : Nat) (lexeme : List Char) : Except Refusal Value :=
  match Text.excessDigits? lexeme, Text.readInt? 10 lexeme with
  | some count, _ => .error (.digits (.reading count))
  | none, some n => .ok (.int n)
  | none, none => .error (.malformed ⟨.value, i⟩)

def numeral (i : Nat) (cs : List Char) : Except Refusal (Progress Value) :=
  let (sign, body) := match cs with
    | '-' :: rest => (['-'], rest)
    | rest => ([], rest)
  let (whole, rest) := match body with
    | '0' :: rest => (['0'], rest)
    | rest => spanDigits rest
  if whole.isEmpty then .error (.malformed ⟨.value, i⟩)
  else
    let (places, rest) := fraction rest
    let (power, rest) := tenPower rest
    let lexeme := sign ++ whole ++ places ++ power
    let value : Except Refusal Value :=
      if places.isEmpty && power.isEmpty then integerOf i lexeme
      else match Decimal.read? lexeme with
        | some x => .ok (.float x)
        | none => .error (.malformed ⟨.value, i⟩)
    value.map fun v => (v, i + lexeme.length, rest)

def named : List (List Char × Value) :=
  [("null".toList, .null), ("true".toList, .bool true), ("false".toList, .bool false),
   ("NaN".toList, .float Decimal.notANumber), ("Infinity".toList, .float (Decimal.infinity false)),
   ("-Infinity".toList, .float (Decimal.infinity true))]

def named? (cs : List Char) : Option (Value × Nat × List Char) :=
  named.findSome? fun (name, v) => (name.isPrefixOf? cs).map fun rest => (v, name.length, rest)

mutual
def valueFrom : Nat → Nat → List Char → Except Refusal (Progress Value)
  | 0, i, _ => .error (.malformed ⟨.value, i⟩)
  | fuel + 1, i, cs =>
    match cs with
    | '"' :: rest => do
      let (s, i, rest) ← (stringFrom i (i + 1) [] rest).mapError .malformed
      return (.text s, i, rest)
    | '[' :: rest =>
      match skipBlanks (i + 1) rest with
      | (i, ']' :: rest) => .ok (.list [], i + 1, rest)
      | (i, rest) => itemsFrom fuel i rest []
    | '\x7b' :: rest =>
      match skipBlanks (i + 1) rest with
      | (i, '\x7d' :: rest) => .ok (.map [], i + 1, rest)
      | (i, rest) => membersFrom fuel i rest []
    | cs =>
      match named? cs with
      | some (v, n, rest) => .ok (v, i + n, rest)
      | none => numeral i cs

def itemsFrom : Nat → Nat → List Char → List Value → Except Refusal (Progress Value)
  | 0, i, _, _ => .error (.malformed ⟨.value, i⟩)
  | fuel + 1, i, cs, done => do
    let (v, i, rest) ← valueFrom fuel i cs
    match skipBlanks i rest with
    | (i, ']' :: rest) => .ok (.list (v :: done).reverse, i + 1, rest)
    | (i, ',' :: rest) =>
      let (i, rest) := skipBlanks (i + 1) rest
      itemsFrom fuel i rest (v :: done)
    | (i, _) => .error (.malformed ⟨.comma, i⟩)

/-- The members of an object from one on. A repeated name keeps its place and takes the last value. -/
def membersFrom : Nat → Nat → List Char → List (Value × Value) → Except Refusal (Progress Value)
  | 0, i, _, _ => .error (.malformed ⟨.value, i⟩)
  | fuel + 1, i, cs, done => do
    match cs with
    | '"' :: rest =>
      let (name, i, rest) ← (stringFrom i (i + 1) [] rest).mapError .malformed
      match skipBlanks i rest with
      | (i, ':' :: rest) =>
        let (i, rest) := skipBlanks (i + 1) rest
        let (v, i, rest) ← valueFrom fuel i rest
        let done := Value.put (.text name) v done
        match skipBlanks i rest with
        | (i, '\x7d' :: rest) => .ok (.map done, i + 1, rest)
        | (i, ',' :: rest) =>
          let (i, rest) := skipBlanks (i + 1) rest
          membersFrom fuel i rest done
        | (i, _) => .error (.malformed ⟨.comma, i⟩)
      | (i, _) => .error (.malformed ⟨.colon, i⟩)
    | _ => .error (.malformed ⟨.propertyName, i⟩)
end

/-- The one value of a text, with blanks around it. A byte order mark is refused. Each step of the
reader takes at least one character, so that as many steps as characters are enough. -/
def read (source : List Char) : Except Refusal Value :=
  match source with
  | '\uFEFF' :: _ => .error (.malformed ⟨.byteOrderMark, 0⟩)
  | _ => do
    let (i, rest) := skipBlanks 0 source
    let (v, i, rest) ← valueFrom (2 * source.length + 2) i rest
    match skipBlanks i rest with
    | (_, []) => .ok v
    | (i, _) => .error (.malformed ⟨.extraData, i⟩)

end PluginCompiler.Json
