/-! Characters of a YAML text with their places. A line break of one or two characters is a single
glyph, and a NUL glyph ends the text. -/

set_option autoImplicit false

namespace PluginCompiler.Yaml

/-- Character index, line and column, all from zero. -/
structure Mark where
  index : Nat
  line : Nat
  column : Nat
  deriving DecidableEq, Repr, Inhabited

structure Glyph where
  char : Char
  mark : Mark
  deriving DecidableEq, Repr, Inhabited

def isAllowed (c : Char) : Bool :=
  let n := c.toNat
  n == 0x9 || n == 0xA || n == 0xD || (0x20 ≤ n && n ≤ 0x7E) || n == 0x85 ||
    (0xA0 ≤ n && n ≤ 0xFFFD) || 0x10000 ≤ n

/-- A byte order mark takes no column. -/
def Mark.past (m : Mark) (c : Char) : Mark :=
  ⟨m.index + 1, m.line, if c = '\uFEFF' then m.column else m.column + 1⟩

def Mark.pastBreak (m : Mark) (width : Nat) : Mark :=
  ⟨m.index + width, m.line + 1, 0⟩

/-- Line breaks become line feeds, except the two separators, which stand for themselves. -/
def glyphsFrom : Mark → List Char → List Glyph
  | m, [] => [⟨'\x00', m⟩]
  | m, '\r' :: '\n' :: cs => ⟨'\n', m⟩ :: glyphsFrom (m.pastBreak 2) cs
  | m, c :: cs =>
    if c = '\n' ∨ c = '\r' ∨ c = '\x85' then ⟨'\n', m⟩ :: glyphsFrom (m.pastBreak 1) cs
    else if c = '\u2028' ∨ c = '\u2029' then ⟨c, m⟩ :: glyphsFrom (m.pastBreak 1) cs
    else ⟨c, m⟩ :: glyphsFrom (m.past c) cs

/-- The glyphs of a text, less a byte order mark at its start; `none` if it holds a character that
is not allowed. -/
def glyphs? (source : List Char) : Option (List Glyph) :=
  if source.all isAllowed then
    match glyphsFrom ⟨0, 0, 0⟩ source with
    | g :: gs => some (if g.char = '\uFEFF' then gs else g :: gs)
    | [] => some []
  else none

def isBreak (c : Char) : Bool := c == '\n' || c == '\u2028' || c == '\u2029'

def endsLine (c : Char) : Bool := c == '\x00' || isBreak c

def endsField (c : Char) : Bool := c == ' ' || endsLine c

def endsToken (c : Char) : Bool := c == '\t' || endsField c

/-- The next character; past the end there are only NULs. -/
def peek : List Glyph → Char
  | [] => '\x00'
  | g :: _ => g.char

def here : List Glyph → Mark
  | [] => ⟨0, 0, 0⟩
  | g :: _ => g.mark

/-- Three equal signs at the left margin that begin or end a document. -/
def atMarker (sign : Char) : List Glyph → Bool
  | a :: b :: c :: rest => a.char == sign && b.char == sign && c.char == sign && endsToken (peek rest)
  | _ => false

def atAnyMarker (gs : List Glyph) : Bool := atMarker '-' gs || atMarker '.' gs

def isNameChar (c : Char) : Bool := c.isAlphanum || c == '-' || c == '_'

def takeChars (p : Char → Bool) : List Glyph → List Char × List Glyph
  | [] => ([], [])
  | g :: gs =>
    if p g.char then
      let (cs, rest) := takeChars p gs
      (g.char :: cs, rest)
    else ([], g :: gs)

def skipSpaces : List Glyph → List Glyph
  | [] => []
  | g :: gs => if g.char = ' ' then skipSpaces gs else g :: gs

/-- What follows the spaces and an optional comment at the end of a line; `none` if anything else
stands there. The line break itself stays. -/
def restOfLine? (gs : List Glyph) : Option (List Glyph) :=
  let gs := skipSpaces gs
  let gs := if peek gs = '#' then (takeChars (fun c => !endsLine c) gs).2 else gs
  if endsLine (peek gs) then some gs else none

def dropBreak : List Glyph → List Glyph
  | [] => []
  | g :: gs => if isBreak g.char then gs else g :: gs

end PluginCompiler.Yaml
