import PluginCompiler.Json.Reader
import PluginCompiler.Text.Utf8
import PluginCompiler.Yaml.Token

/-! The tokens that carry text: directives, anchors, tags and scalars. Each reader takes the glyphs
from the token's first one on and gives what it read and the glyphs after it. -/

set_option autoImplicit false

namespace PluginCompiler.Yaml

open PluginCompiler.Json (hexValue?)

/-! ## Names, tags and directives -/

def name (gs : List Glyph) : Scan (String × List Glyph) :=
  match takeChars isNameChar gs with
  | ([], _) => .error .malformed
  | (cs, rest) => .ok (String.ofList cs, rest)

def anchorName (gs : List Glyph) : Scan (String × List Glyph) := do
  let (text, rest) ← name (gs.drop 1)
  let c := peek rest
  if endsToken c || "?:,]\x7d%@`".toList.contains c then return (text, rest)
  else throw .malformed

def isUriChar (c : Char) : Bool :=
  c.isAlphanum || "-;/?:@&=+$,_.!~*'()[]".toList.contains c

def percentBytes : List Glyph → Scan (List UInt8 × List Glyph)
  | g :: h :: l :: rest =>
    if g.char = '%' then
      match hexValue? h.char, hexValue? l.char with
      | some x, some y => do
        let (bytes, rest) ← percentBytes rest
        return (UInt8.ofNat (x * 16 + y) :: bytes, rest)
      | _, _ => .error .malformed
    else .ok ([], g :: h :: l :: rest)
  | g :: rest => if g.char = '%' then .error .malformed else .ok ([], g :: rest)
  | [] => .ok ([], [])

/-- The characters of a tag or a handle's meaning, with runs of percent escapes decoded. -/
def uriFrom : Nat → List Glyph → Scan (List Char × List Glyph)
  | 0, gs => .ok ([], gs)
  | fuel + 1, gs =>
    match gs with
    | [] => .ok ([], [])
    | g :: rest =>
      if isUriChar g.char then do
        let (cs, rest) ← uriFrom fuel rest
        return (g.char :: cs, rest)
      else if g.char = '%' then do
        let (bytes, rest) ← percentBytes gs
        match Text.Utf8.decodeChars bytes with
        | .error _ => throw .malformed
        | .ok decoded =>
          let (cs, rest) ← uriFrom fuel rest
          return (decoded ++ cs, rest)
      else .ok ([], gs)

def uri (gs : List Glyph) : Scan (String × List Glyph) := do
  if isUriChar (peek gs) || peek gs == '%' then
    let (cs, rest) ← uriFrom gs.length gs
    return (String.ofList cs, rest)
  else throw .malformed

def handle (gs : List Glyph) : Scan (String × List Glyph) :=
  match gs with
  | bang :: rest =>
    if bang.char ≠ '!' then .error .malformed
    else if peek rest = ' ' then .ok ("!", rest)
    else
      let (cs, after) := takeChars isNameChar rest
      match after with
      | close :: after' =>
        if close.char = '!' then .ok (String.ofList ('!' :: cs ++ ['!']), after')
        else .error .malformed
      | [] => .error .malformed
  | [] => .error .malformed

/-- A handle where a lone exclamation mark must be followed by a space. -/
def directiveHandle (gs : List Glyph) : Scan (String × List Glyph) := do
  let (text, rest) ← handle gs
  if peek rest = ' ' then return (text, rest) else throw .malformed

def bangAhead : List Glyph → Bool
  | [] => false
  | g :: gs => if endsField g.char then false else g.char == '!' || bangAhead gs

def tag (gs : List Glyph) : Scan (Kind × List Glyph) := do
  let body := gs.drop 1
  let (kind, rest) ←
    if peek body = '<' then do
      let (text, rest) ← uri (body.drop 1)
      if peek rest = '>' then pure (Kind.tag none text, rest.drop 1) else throw .malformed
    else if endsToken (peek body) then pure (Kind.tag none "!", body)
    else do
      let (short, rest) ← if bangAhead body then handle gs else pure ("!", body)
      let (suffix, rest) ← uri rest
      pure (Kind.tag (some short) suffix, rest)
  if endsField (peek rest) then return (kind, rest) else throw .malformed

def digits (gs : List Glyph) : Scan (Nat × List Glyph) :=
  match takeChars Char.isDigit gs with
  | ([], _) => .error .malformed
  | (cs, rest) => .ok (Nat.ofDigitChars 10 cs 0, rest)

def directive (gs : List Glyph) : Scan (Directive × List Glyph) := do
  let (text, rest) ← name (gs.drop 1)
  if !endsField (peek rest) then throw .malformed
  let (d, rest) ←
    if text = "YAML" then do
      let (major, rest) ← digits (skipSpaces rest)
      if peek rest ≠ '.' then throw .malformed
      let (_, rest) ← digits (rest.drop 1)
      if !endsField (peek rest) then throw .malformed
      pure (Directive.version major, rest)
    else if text = "TAG" then do
      let (h, rest) ← directiveHandle (skipSpaces rest)
      let (meaning, rest) ← uri (skipSpaces rest)
      if !endsField (peek rest) then throw .malformed
      pure (Directive.handle h meaning, rest)
    else pure (Directive.other, (takeChars (fun c => !endsLine c) rest).2)
  match restOfLine? rest with
  | some rest => return (d, dropBreak rest)
  | none => throw .malformed

/-! ## Quoted scalars -/

inductive Phase where
  | text
  /-- Blanks, latest first, that count unless a line break follows. -/
  | blanks (blanks : List Char)
  /-- The first line break of a gap and the further ones, latest first. -/
  | gap (first : Char) (more : List Char)
  | joined (more : List Char)
  | number (owed : Nat) (value : Nat)
  deriving DecidableEq, Repr

/-- The text so far, latest character first, with what a phase adds to it. One line break alone
folds into a space. -/
def Phase.flush : Phase → List Char → List Char
  | .text, done => done
  | .blanks bs, done => bs ++ done
  | .gap first more, done =>
    if first = '\n' then (if more.isEmpty then ' ' :: done else more ++ done)
    else more ++ first :: done
  | .joined more, done => more ++ done
  | .number _ _, done => done

def Phase.broken (c : Char) : Phase → Phase
  | .gap first more => .gap first (c :: more)
  | .joined more => .joined (c :: more)
  | _ => .gap c []

def Phase.blank (c : Char) : Phase → Phase
  | .text => .blanks [c]
  | .blanks bs => .blanks (c :: bs)
  | other => other

def escape? : Char → Option Char
  | '0' => some '\x00'
  | 'a' => some '\x07'
  | 'b' => some '\x08'
  | 't' => some '\t'
  | '\t' => some '\t'
  | 'n' => some '\n'
  | 'v' => some '\x0b'
  | 'f' => some '\x0c'
  | 'r' => some '\r'
  | 'e' => some '\x1b'
  | ' ' => some ' '
  | '"' => some '"'
  | '\\' => some '\\'
  | '/' => some '/'
  | 'N' => some '\x85'
  | '_' => some '\xa0'
  | 'L' => some '\u2028'
  | 'P' => some '\u2029'
  | _ => none

def escapeWidth? : Char → Option Nat
  | 'x' => some 2
  | 'u' => some 4
  | 'U' => some 8
  | _ => none

def quotedFrom (isDouble : Bool) : Phase → List Char → List Glyph → Scan (List Char × List Glyph)
  | _, _, [] => .error .malformed
  | .number owed value, done, g :: gs =>
    match hexValue? g.char with
    | none => .error .malformed
    | some d =>
      let value := value * 16 + d
      match owed with
      | owed + 2 => quotedFrom isDouble (.number (owed + 1) value) done gs
      | _ =>
        if 0x10FFFF < value then .error (.noSuchCharacter value)
        else quotedFrom isDouble .text (Json.scalar value :: done) gs
  | phase, done, g :: gs =>
    let c := g.char
    if c = ' ' ∨ c = '\t' then quotedFrom isDouble (phase.blank c) done gs
    else if isBreak c then
      -- A marker of documents at the start of a line ends the text inside the quotes.
      if atAnyMarker gs then .error .malformed else quotedFrom isDouble (phase.broken c) done gs
    else if c = '\x00' then .error .malformed
    else
      let done := phase.flush done
      if isDouble then
        if c = '"' then .ok (done.reverse, gs)
        else if c = '\\' then
          match gs with
          | [] => .error .malformed
          | h :: gs =>
            match escape? h.char, escapeWidth? h.char with
            | some e, _ => quotedFrom isDouble .text (e :: done) gs
            | none, some width => quotedFrom isDouble (.number width 0) done gs
            | none, none =>
              -- An escaped line break joins its lines without a space, and the blanks before it count.
              if isBreak h.char then
                if atAnyMarker gs then .error .malformed
                else quotedFrom isDouble (.joined []) done gs
              else .error .malformed
        else quotedFrom isDouble .text (c :: done) gs
      else if c = '\'' then
        match gs with
        -- Two single quotes stand for one.
        | h :: gs' =>
          if h.char = '\'' then quotedFrom isDouble .text ('\'' :: done) gs'
          else .ok (done.reverse, h :: gs')
        | [] => .ok (done.reverse, [])
      else quotedFrom isDouble .text (c :: done) gs

def quoted (isDouble : Bool) (gs : List Glyph) : Scan (String × List Glyph) := do
  let (cs, rest) ← quotedFrom isDouble .text [] (gs.drop 1)
  return (String.ofList cs, rest)

/-! ## Plain scalars -/

def isFlowSign (c : Char) : Bool := c == ',' || c == '[' || c == ']' || c == '\x7b' || c == '\x7d'

def plainRun (inFlow : Bool) : List Glyph → List Char × List Glyph
  | [] => ([], [])
  | g :: gs =>
    let c := g.char
    let next := peek gs
    if endsToken c || (c == ':' && (endsToken next || (inFlow && isFlowSign next))) ||
        (inFlow && (c == '?' || isFlowSign c)) then ([], g :: gs)
    else
      let (cs, rest) := plainRun inFlow gs
      (c :: cs, rest)

/-- The empty lines after a line break, in order, with the glyphs after them; `none` if a document
marker stands there. -/
def emptyLines : List Glyph → Option (List Char) × List Glyph
  | [] => (some [], [])
  | g :: gs =>
    if g.char = ' ' then emptyLines gs
    else if isBreak g.char then
      if atAnyMarker gs then (none, gs)
      else match emptyLines gs with
        | (some breaks, rest) => (some (g.char :: breaks), rest)
        | (none, rest) => (none, rest)
    else (some [], g :: gs)

structure Between where
  /-- The text it adds; empty if the scalar ends before it. -/
  text : List Char
  rest : List Glyph
  broken : Bool

def between (gs : List Glyph) : Between :=
  let (spaces, rest) := takeChars (· == ' ') gs
  match rest with
  | g :: after =>
    if isBreak g.char then
      if atAnyMarker after then ⟨[], after, true⟩
      else match emptyLines after with
        | (none, rest) => ⟨[], rest, true⟩
        | (some breaks, rest) =>
          let text :=
            if g.char ≠ '\n' then g.char :: breaks else if breaks.isEmpty then [' '] else breaks
          ⟨text, rest, true⟩
    else ⟨spaces, rest, false⟩
  | [] => ⟨[], [], false⟩

/-- The text of a plain scalar, the glyphs after it, and whether a line break was passed since its
last run. Outside brackets each line is indented by more than `indent`. -/
def plainFrom (inFlow : Bool) (indent : Int) :
    Nat → List Char → Bool → List Glyph → List Char × List Glyph × Bool
  | 0, _, broken, gs => ([], gs, broken)
  | fuel + 1, pending, broken, gs =>
    if peek gs = '#' then ([], gs, broken)
    else match plainRun inFlow gs with
      | ([], _) => ([], gs, broken)
      | (run, after) =>
        -- What stands between two runs counts only if a further run follows it.
        let b := between after
        if b.text.isEmpty || peek b.rest == '#' ||
            (!inFlow && (here b.rest).column < indent + 1) then (pending ++ run, b.rest, b.broken)
        else
          let (more, rest, broken) := plainFrom inFlow indent fuel b.text b.broken b.rest
          (pending ++ run ++ more, rest, broken)

def plain (inFlow : Bool) (indent : Int) (gs : List Glyph) : String × List Glyph × Bool :=
  let (cs, rest, broken) := plainFrom inFlow indent gs.length [] false gs
  (String.ofList cs, rest, broken)

/-! ## Block scalars -/

inductive Chomping where
  | strip
  | clip
  | keep
  deriving DecidableEq, Repr

def chomping? : Char → Option Chomping
  | '+' => some .keep
  | '-' => some .strip
  | _ => none

/-- The indentation that a digit asks for; zero is not allowed. -/
def increment? (c : Char) : Option (Scan Nat) :=
  if c.isDigit then some (if c = '0' then .error .malformed else .ok (c.toNat - 0x30)) else none

/-- The indicators after the sign of a block scalar, in either order. -/
def blockHeader (gs : List Glyph) : Scan (Chomping × Option Nat × List Glyph) := do
  let (chomping, increment, rest) ←
    match chomping? (peek gs) with
    | some chomping =>
      let rest := gs.drop 1
      match increment? (peek rest) with
      | some n => pure (chomping, some (← n), rest.drop 1)
      | none => pure (chomping, none, rest)
    | none =>
      match increment? (peek gs) with
      | some n =>
        let n ← n
        let rest := gs.drop 1
        match chomping? (peek rest) with
        | some chomping => pure (chomping, some n, rest.drop 1)
        | none => pure (Chomping.clip, some n, rest)
      | none => pure (Chomping.clip, none, gs)
  if endsField (peek rest) then return (chomping, increment, rest) else throw .malformed

/-- Leading empty lines, the greatest column reached on them and at the first line with text, and
the glyphs from there on. -/
def measureIndent : List Glyph → List Char × Nat × List Glyph
  | [] => ([], 0, [])
  | g :: gs =>
    if g.char = ' ' then
      let (breaks, widest, rest) := measureIndent gs
      (breaks, max widest (g.mark.column + 1), rest)
    else if isBreak g.char then
      let (breaks, widest, rest) := measureIndent gs
      (g.char :: breaks, widest, rest)
    else ([], 0, g :: gs)

def blockBreaks (indent : Nat) : List Glyph → List Char × List Glyph
  | [] => ([], [])
  | g :: gs =>
    if g.char = ' ' ∧ g.mark.column < indent then blockBreaks indent gs
    else if isBreak g.char then
      let (breaks, rest) := blockBreaks indent gs
      (g.char :: breaks, rest)
    else ([], g :: gs)

def startsLine (indent : Nat) (gs : List Glyph) : Bool :=
  (here gs).column == indent && peek gs != '\x00'

/-- A space or a tab at the start of a line keeps it from being folded. -/
def isIndented (gs : List Glyph) : Bool := peek gs == ' ' || peek gs == '\t'

/-- The lines of a block scalar and, apart, its last line break and the empty lines after it. -/
def blockLines (folded : Bool) (indent : Nat) :
    Nat → List Char → List Glyph → List Char × List Char × List Char × List Glyph
  | 0, breaks, gs => ([], [], breaks, gs)
  | fuel + 1, breaks, gs =>
    if startsLine indent gs then
      let (line, after) := takeChars (fun c => !endsLine c) gs
      let (ending, after) := match after with
        | g :: rest => if isBreak g.char then ([g.char], rest) else ([], g :: rest)
        | [] => ([], [])
      let (breaks', next) := blockBreaks indent after
      if startsLine indent next then
        let joint :=
          -- Only a plain line break between two lines that are not indented further is folded.
          if folded && ending == ['\n'] && !isIndented gs && !isIndented next then
            (if breaks'.isEmpty then [' '] else [])
          else ending
        let (text, ending, breaks', rest) := blockLines folded indent fuel breaks' next
        (breaks ++ line ++ joint ++ text, ending, breaks', rest)
      else (breaks ++ line, ending, breaks', next)
    else ([], [], breaks, gs)

def block (folded : Bool) (parent : Int) (gs : List Glyph) : Scan (String × List Glyph) := do
  let (chomping, increment, rest) ← blockHeader (gs.drop 1)
  match restOfLine? rest with
  | none => throw .malformed
  | some rest =>
    let rest := dropBreak rest
    -- Text is indented by at least one column, also at the top.
    let least := max 1 (parent + 1).toNat
    let (breaks, indent, rest) :=
      match increment with
      | none =>
        let (breaks, widest, rest) := measureIndent rest
        (breaks, max least widest, rest)
      | some n =>
        let indent := least + n - 1
        let (breaks, rest) := blockBreaks indent rest
        (breaks, indent, rest)
    let (text, ending, breaks, rest) := blockLines folded indent rest.length breaks rest
    let tail := match chomping with
      | .strip => []
      | .clip => ending
      | .keep => ending ++ breaks
    return (String.ofList (text ++ tail), rest)

end PluginCompiler.Yaml
