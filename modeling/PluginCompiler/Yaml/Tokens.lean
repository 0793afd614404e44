import PluginCompiler.Yaml.Lexeme

/-! A YAML text as tokens. Keys without a sign of their own are found out late: each place where
one may start is kept as an empty slot, which is filled once a value sign shows that a key was
there. -/

set_option autoImplicit false

namespace PluginCompiler.Yaml

structure Candidate where
  slot : Nat
  /-- Nothing but a key may stand there. -/
  required : Bool
  mark : Mark

/-- A candidate on an earlier line or too far back can no longer become a key. -/
def Candidate.isStale (c : Candidate) (now : Mark) : Bool :=
  c.mark.line != now.line || 1024 + c.mark.index < now.index

structure Scanner where
  slots : Array (List Token)
  depth : Nat
  /-- Column of the innermost block collection, and of those around it. -/
  indent : Int
  indents : List Int
  allowsKey : Bool
  /-- At most one candidate for each depth of brackets. -/
  candidates : List (Nat × Candidate)

namespace Scanner

def start : Scanner := ⟨#[], 0, -1, [], true, []⟩

def emit (s : Scanner) (kind : Kind) (start stop : Mark) : Scanner :=
  { s with slots := s.slots.push [⟨kind, start, stop⟩] }

def dropStale (s : Scanner) (now : Mark) : Scan Scanner :=
  if s.candidates.any fun e => e.2.isStale now && e.2.required then .error .malformed
  else .ok { s with candidates := s.candidates.filter fun e => !e.2.isStale now }

/-- The number of slots that no candidate keeps open. What stands in them is known before anything
further is read. -/
def settled (s : Scanner) (now : Mark) : Nat :=
  (s.candidates.filter fun e => !e.2.isStale now).foldl (fun n e => min n e.2.slot) s.slots.size

def dropCandidate (s : Scanner) : Scan Scanner :=
  match s.candidates.lookup s.depth with
  | some c =>
    if c.required then .error .malformed
    else .ok { s with candidates := s.candidates.filter fun e => e.1 != s.depth }
  | none => .ok s

def saveCandidate (s : Scanner) (now : Mark) : Scan Scanner :=
  if s.allowsKey then do
    -- At the column of the innermost collection only a further key can follow.
    let required := s.depth == 0 && s.indent == now.column
    let s ← s.dropCandidate
    return { s with
      slots := s.slots.push []
      candidates := (s.depth, ⟨s.slots.size, required, now⟩) :: s.candidates }
  else .ok s

/-- Block collections that start to the right of a column are closed. -/
def closeTo (column : Int) (now : Mark) : Int → List Int → Array (List Token) →
    Int × List Int × Array (List Token)
  | indent, [], slots => (indent, [], slots)
  | indent, outer :: rest, slots =>
    if column < indent then closeTo column now outer rest (slots.push [⟨.blockEnd, now, now⟩])
    else (indent, outer :: rest, slots)

def unwind (s : Scanner) (column : Int) (now : Mark) : Scanner :=
  if s.depth = 0 then
    let (indent, indents, slots) := closeTo column now s.indent s.indents s.slots
    { s with indent := indent, indents := indents, slots := slots }
  else s

/-- A block collection at a column that is further right than the innermost one. -/
def indentTo? (s : Scanner) (column : Int) : Option Scanner :=
  if s.indent < column then some { s with indent := column, indents := s.indent :: s.indents }
  else none

def openAt (s : Scanner) (kind : Kind) (now : Mark) : Scanner :=
  match s.indentTo? now.column with
  | some s => s.emit kind now now
  | none => s

/-- Outside brackets a collection's sign must stand where a key may start. -/
def openBlock (s : Scanner) (kind : Kind) (now : Mark) : Scan Scanner :=
  if s.depth = 0 then
    if s.allowsKey then .ok (s.openAt kind now) else .error .malformed
  else .ok s

def confirm (s : Scanner) (c : Candidate) : Scanner :=
  let key : Token := ⟨.key, c.mark, c.mark⟩
  let s := { s with candidates := s.candidates.filter fun e => e.1 != s.depth }
  let opened := if s.depth = 0 then s.indentTo? c.mark.column else none
  match opened with
  | some t =>
    { t with slots := t.slots.setIfInBounds c.slot [⟨.blockMappingStart, c.mark, c.mark⟩, key] }
  | none => { s with slots := s.slots.setIfInBounds c.slot [key] }

def value (s : Scanner) (now : Mark) : Scan Scanner :=
  match s.candidates.lookup s.depth with
  | some c => .ok { s.confirm c with allowsKey := false }
  | none => do
    let s ← s.openBlock .blockMappingStart now
    { s with allowsKey := s.depth == 0 }.dropCandidate

def sign (s : Scanner) (kind : Kind) (allowsKey : Bool) (gs rest : List Glyph) :
    Scan (Scanner × List Glyph) := do
  let s ← { s with allowsKey := allowsKey }.dropCandidate
  return (s.emit kind (here gs) (here rest), rest)

def content (s : Scanner) (kind : Kind) (gs rest : List Glyph) : Scan (Scanner × List Glyph) := do
  let s ← s.saveCandidate (here gs)
  return ({ s with allowsKey := false }.emit kind (here gs) (here rest), rest)

/-- Closes every collection before a directive, a document marker or the end. -/
def toMargin (s : Scanner) (now : Mark) : Scan Scanner := do
  let s ← (s.unwind (-1) now).dropCandidate
  return { s with allowsKey := false }

def startsPlain (s : Scanner) (gs : List Glyph) : Bool :=
  let c := peek gs
  !(endsToken c || "-?:,[]\x7b\x7d#&*!|>'\"%@`".toList.contains c) ||
    (!endsToken (peek (gs.drop 1)) && (c == '-' || (s.depth == 0 && (c == '?' || c == ':'))))

/-- A text that may start a key; where it names no character only what was settled before it is
left. -/
def text (s : Scanner) (settled : Nat) (isDouble : Bool) (gs : List Glyph) :
    Scan (Scanner × List Glyph) := do
  let s ← s.saveCandidate (here gs)
  match quoted isDouble gs with
  | .ok (text, rest) =>
    return ({ s with allowsKey := false }.emit (.scalar text false) (here gs) (here rest), rest)
  | .error .malformed => throw .malformed
  | .error (.noSuchCharacter number) =>
    let broken : Token := ⟨.noSuchCharacter number, here gs, here gs⟩
    return ({ s with slots := (s.slots.extract 0 settled).push [broken] }, [])

/-- One token from the glyphs at its start. The second result is empty after the last token. -/
def next (s : Scanner) (settled : Nat) (gs : List Glyph) : Scan (Scanner × List Glyph) := do
  let now := here gs
  let c := peek gs
  let after := gs.drop 1
  let s := s.unwind now.column now
  if c = '\x00' then
    let s ← s.toMargin now
    return (s.emit .streamEnd now now, [])
  else if c = '%' ∧ now.column = 0 then
    let s ← s.toMargin now
    let (d, rest) ← directive gs
    return (s.emit (.directive d) now (here rest), rest)
  else if now.column = 0 ∧ atMarker '-' gs then
    let s ← s.toMargin now
    return (s.emit .documentStart now (here (gs.drop 3)), gs.drop 3)
  else if now.column = 0 ∧ atMarker '.' gs then
    let s ← s.toMargin now
    return (s.emit .documentEnd now (here (gs.drop 3)), gs.drop 3)
  else if c = '[' ∨ c = '\x7b' then
    let s ← s.saveCandidate now
    let kind := if c = '[' then Kind.flowSequenceStart else Kind.flowMappingStart
    return ({ s with depth := s.depth + 1, allowsKey := true }.emit kind now (here after), after)
  else if c = ']' ∨ c = '\x7d' then
    let s ← s.dropCandidate
    let kind := if c = ']' then Kind.flowSequenceEnd else Kind.flowMappingEnd
    return ({ s with depth := s.depth - 1, allowsKey := false }.emit kind now (here after), after)
  else if c = ',' then s.sign .flowEntry true gs after
  else if c = '-' ∧ endsToken (peek after) then
    let s ← s.openBlock .blockSequenceStart now
    s.sign .blockEntry true gs after
  else if c = '?' ∧ (0 < s.depth ∨ endsToken (peek after)) then
    let s ← s.openBlock .blockMappingStart now
    s.sign .key (s.depth == 0) gs after
  else if c = ':' ∧ (0 < s.depth ∨ endsToken (peek after)) then
    let s ← s.value now
    return (s.emit .value now (here after), after)
  else if c = '*' then
    let (name, rest) ← anchorName gs
    s.content (.alias name) gs rest
  else if c = '&' then
    let (name, rest) ← anchorName gs
    s.content (.anchor name) gs rest
  else if c = '!' then
    let (kind, rest) ← tag gs
    s.content kind gs rest
  else if (c = '|' ∨ c = '>') ∧ s.depth = 0 then
    -- A block scalar ends with its line, so that a key may start after it.
    let s ← { s with allowsKey := true }.dropCandidate
    let (text, rest) ← block (c == '>') s.indent gs
    return (s.emit (.scalar text false) now (here rest), rest)
  else if c = '\'' then s.text settled false gs
  else if c = '"' then s.text settled true gs
  else if s.startsPlain gs then
    let s ← s.saveCandidate now
    let (text, rest, broken) := plain (0 < s.depth) s.indent gs
    return ({ s with allowsKey := broken }.emit (.scalar text true) now (here rest), rest)
  else throw .malformed

/-- What follows the blanks, comments and line breaks before a token, and whether a line break was
among them. -/
def toToken : Bool → List Glyph → List Glyph × Bool
  | _, [] => ([], false)
  | inComment, g :: gs =>
    if isBreak g.char then
      let (rest, _) := toToken false gs
      (rest, true)
    else if g.char = '\x00' then (g :: gs, false)
    else if inComment then toToken true gs
    else if g.char = ' ' then toToken false gs
    else if g.char = '#' then toToken true gs
    else (g :: gs, false)

/-- Every token takes at least one glyph, so that as many steps as glyphs are enough. -/
def run : Nat → Scanner → List Glyph → Scan Scanner
  | 0, s, _ => .ok s
  | _, s, [] => .ok s
  | fuel + 1, s, gs => do
    -- What is settled is judged before blanks are passed, as a reader who looks no further would.
    let settled := s.settled (here gs)
    let (gs, broken) := toToken false gs
    let s := if broken && s.depth == 0 then { s with allowsKey := true } else s
    let s ← s.dropStale (here gs)
    let (s, rest) ← s.next settled gs
    run fuel s rest

end Scanner

def tokens (gs : List Glyph) : Scan (List Token) := do
  let s ← Scanner.start.run (gs.length + 1) gs
  return s.slots.toList.flatten

end PluginCompiler.Yaml
