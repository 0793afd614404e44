import PluginCompiler.Yaml.Tag
import PluginCompiler.Yaml.Tokens

/-! The nodes of the one document in a text. Nodes refer to each other by number, so that an alias
is its node and a collection may hold itself. -/

set_option autoImplicit false

namespace PluginCompiler.Yaml

inductive Content where
  | scalar (text : String)
  | sequence (items : List Nat)
  | mapping (pairs : List (Nat × Nat))
  deriving DecidableEq, Repr, Inhabited

structure Node where
  tag : Tag
  content : Content
  start : Mark
  deriving DecidableEq, Repr, Inhabited

structure Draft where
  tokens : List Token
  nodes : Array Node
  anchors : List (String × Nat)
  handles : List (String × String)

abbrev Compose (α : Type) := StateT Draft (Except Stop) α

namespace Compose

/-- The next token. Nothing past the end of the known text can be looked at. -/
def look : Compose Token := fun d =>
  match d.tokens with
  | [] => .error .malformed
  | t :: _ =>
    match t.kind with
    | .noSuchCharacter number => .error (.noSuchCharacter number)
    | _ => .ok (t, d)

def skip : Compose Unit := modify fun d => { d with tokens := d.tokens.drop 1 }

def took (kind : Kind) : Compose Bool := do
  let t ← look
  if t.kind = kind then skip; return true else return false

def nextIsIn (kinds : List Kind) : Compose Bool := do
  return kinds.contains (← look).kind

def expect (kind : Kind) : Compose Unit := do
  if !(← took kind) then throw .malformed

def add (anchor : Option String) (node : Node) : Compose Nat := do
  let d ← get
  let id := d.nodes.size
  let anchors := match anchor with
    | some a => (a, id) :: d.anchors
    | none => d.anchors
  set { d with nodes := d.nodes.push node, anchors := anchors }
  return id

def fill (id : Nat) (content : Content) : Compose Unit :=
  modify fun d => { d with nodes := d.nodes.modify id fun n => { n with content := content } }

def absent (mark : Mark) : Compose Nat :=
  add none ⟨.null, .scalar "", mark⟩

structure Properties where
  anchor : Option String
  tag : Option (Option String × String)
  start : Option Mark

def anchor? : Compose (Option (String × Mark)) := do
  let t ← look
  match t.kind with
  | .anchor name => skip; return some (name, t.start)
  | _ => return none

def tag? : Compose (Option ((Option String × String) × Mark)) := do
  let t ← look
  match t.kind with
  | .tag short suffix => skip; return some ((short, suffix), t.start)
  | _ => return none

def properties : Compose Properties := do
  match ← anchor? with
  | some (name, start) =>
    let t ← tag?
    return ⟨some name, t.map (·.1), some start⟩
  | none =>
    match ← tag? with
    | some (t, start) =>
      let a ← anchor?
      return ⟨a.map (·.1), some t, some start⟩
    | none => return ⟨none, none, none⟩

/-- The full name of a tag; `none` for a node without one. A lone exclamation mark asks for the tag
that the form implies. -/
def fullName (p : Properties) : Compose (Option String) := do
  match p.tag with
  | none => return none
  | some (none, suffix) => return some suffix
  | some (some short, suffix) =>
    match (← get).handles.lookup short with
    | some meaning => return some (meaning ++ suffix)
    | none => throw .malformed

def scalarTag (name : Option String) (text : String) (isPlain : Bool) : Tag :=
  match name with
  | none => if isPlain then Tag.ofForm text else .str
  | some "!" => Tag.ofForm text
  | some name => Tag.ofName name

def collectionTag (name : Option String) (default_ : Tag) : Tag :=
  match name with
  | none => default_
  | some "!" => default_
  | some name => Tag.ofName name

mutual
/-- A node. `inBlock` allows block collections, `unindented` a sequence whose entries stand at the
column of the mapping around it. -/
def node (inBlock unindented : Bool) : Nat → Compose Nat
  | 0 => throw .malformed
  | fuel + 1 => do
    let first ← look
    match first.kind with
    | .alias name =>
      skip
      match (← get).anchors.lookup name with
      | some id => return id
      | none => throw .malformed
    | _ =>
      let p ← properties
      let name ← fullName p
      let t ← look
      -- An anchor that already names a node may not be given again.
      if let some a := p.anchor then
        if ((← get).anchors.lookup a).isSome then throw .malformed
      let start := p.start.getD t.start
      let sequence := collectionTag name .seq
      let mapping := collectionTag name .map
      match t.kind with
      | .scalar text isPlain =>
        skip
        add p.anchor ⟨scalarTag name text isPlain, .scalar text, start⟩
      | .flowSequenceStart =>
        skip
        let id ← add p.anchor ⟨sequence, .sequence [], start⟩
        -- The node is known by its anchor before its items are read, so that it may hold itself.
        fill id (.sequence (← flowItems true fuel))
        return id
      | .flowMappingStart =>
        skip
        let id ← add p.anchor ⟨mapping, .mapping [], start⟩
        fill id (.mapping (← flowPairs true fuel))
        return id
      | kind =>
        if unindented && kind = .blockEntry then
          let id ← add p.anchor ⟨sequence, .sequence [], start⟩
          fill id (.sequence (← unindentedItems fuel))
          return id
        else if inBlock && kind = .blockSequenceStart then
          skip
          let id ← add p.anchor ⟨sequence, .sequence [], start⟩
          fill id (.sequence (← blockItems fuel))
          return id
        else if inBlock && kind = .blockMappingStart then
          skip
          let id ← add p.anchor ⟨mapping, .mapping [], start⟩
          fill id (.mapping (← blockPairs fuel))
          return id
        else if p.start.isSome then
          add p.anchor ⟨scalarTag name "" true, .scalar "", start⟩
        else throw .malformed

/-- A node unless one of the given kinds comes next, which stand for an absent one. -/
def nodeUnless (kinds : List Kind) (mark : Mark) (inBlock unindented : Bool) : Nat → Compose Nat
  | 0 => throw .malformed
  | fuel + 1 => do
    if ← nextIsIn kinds then absent mark else node inBlock unindented fuel

def blockItems : Nat → Compose (List Nat)
  | 0 => throw .malformed
  | fuel + 1 => do
    let t ← look
    if ← took .blockEntry then
      let id ← nodeUnless [.blockEntry, .blockEnd] t.stop true false fuel
      return id :: (← blockItems fuel)
    else
      expect .blockEnd
      return []

def unindentedItems : Nat → Compose (List Nat)
  | 0 => throw .malformed
  | fuel + 1 => do
    let t ← look
    if ← took .blockEntry then
      let id ← nodeUnless [.blockEntry, .key, .value, .blockEnd] t.stop true false fuel
      return id :: (← unindentedItems fuel)
    else return []

def valueNode (kinds : List Kind) (inBlock : Bool) : Nat → Compose Nat
  | 0 => throw .malformed
  | fuel + 1 => do
    let t ← look
    if ← took .value then nodeUnless kinds t.stop inBlock inBlock fuel else absent t.start

def blockPairs : Nat → Compose (List (Nat × Nat))
  | 0 => throw .malformed
  | fuel + 1 => do
    let t ← look
    if ← took .key then
      let key ← nodeUnless [.key, .value, .blockEnd] t.stop true true fuel
      let value ← valueNode [.key, .value, .blockEnd] true fuel
      return (key, value) :: (← blockPairs fuel)
    else
      expect .blockEnd
      return []

/-- The entries of a sequence in brackets; one with a key sign is a mapping of a single pair. -/
def flowItems (isFirst : Bool) : Nat → Compose (List Nat)
  | 0 => throw .malformed
  | fuel + 1 => do
    if ← took .flowSequenceEnd then return []
    if !isFirst then expect .flowEntry
    let t ← look
    if ← took .key then
      let id ← add none ⟨.map, .mapping [], t.start⟩
      let key ← nodeUnless [.value, .flowEntry, .flowSequenceEnd] t.stop false false fuel
      let value ← valueNode [.flowEntry, .flowSequenceEnd] false fuel
      fill id (.mapping [(key, value)])
      return id :: (← flowItems false fuel)
    else if ← took .flowSequenceEnd then return []
    else
      let id ← node false false fuel
      return id :: (← flowItems false fuel)

/-- The pairs of a mapping in braces; an entry without a sign is a key with an absent value. -/
def flowPairs (isFirst : Bool) : Nat → Compose (List (Nat × Nat))
  | 0 => throw .malformed
  | fuel + 1 => do
    if ← took .flowMappingEnd then return []
    if !isFirst then expect .flowEntry
    let t ← look
    if ← took .key then
      let key ← nodeUnless [.value, .flowEntry, .flowMappingEnd] t.stop false false fuel
      let value ← valueNode [.flowEntry, .flowMappingEnd] false fuel
      return (key, value) :: (← flowPairs false fuel)
    else if ← took .flowMappingEnd then return []
    else
      let key ← node false false fuel
      let value ← absent (← look).start
      return (key, value) :: (← flowPairs false fuel)
end

def standardHandles : List (String × String) := [("!", "!"), ("!!", Tag.authority)]

/-- The directives before a document: one version at most, with 1 before the point, and one meaning
at most for each handle. -/
def directivesFrom : List Token → Bool → List (String × String) →
    Except Stop (List Token × List (String × String))
  | [], _, handles => .ok ([], handles)
  | t :: ts, versioned, handles =>
    match t.kind with
    | .directive (.version major) =>
      if versioned || major != 1 then .error .malformed else directivesFrom ts true handles
    | .directive (.handle h meaning) =>
      if (handles.lookup h).isSome then .error .malformed
      else directivesFrom ts versioned ((h, meaning) :: handles)
    | .directive .other => directivesFrom ts versioned handles
    | _ => .ok (t :: ts, handles)

def directives : Compose Unit := fun d => do
  let (tokens, handles) ← directivesFrom d.tokens false []
  let standard := standardHandles.filter fun e => (handles.lookup e.1).isNone
  return ((), { d with tokens := tokens, handles := handles ++ standard })

def dropDocumentEnds : List Token → List Token
  | [] => []
  | t :: ts => if t.kind = .documentEnd then dropDocumentEnds ts else t :: ts

def isDirective : Kind → Bool
  | .directive _ => true
  | _ => false

def finish : Compose Unit := do
  modify fun d => { d with tokens := dropDocumentEnds d.tokens }
  if (← look).kind ≠ .streamEnd then
    directives
    let _ ← look
    throw .malformed

def document (fuel : Nat) : Compose (Option Nat) := do
  let t ← look
  if t.kind = .streamEnd then return none
  else if isDirective t.kind || t.kind = .documentStart then
    directives
    expect .documentStart
    let t ← look
    let ends := isDirective t.kind || [Kind.documentStart, .documentEnd, .streamEnd].contains t.kind
    let root ← if ends then absent t.start else node true false fuel
    finish
    return some root
  else
    let root ← node true false fuel
    finish
    return some root

end Compose

structure Graph where
  nodes : Array Node
  root : Option Nat

/-- The document of a text. A node takes at most four steps for each of its tokens. -/
def Graph.ofText (source : List Char) : Except Stop Graph := do
  match glyphs? source with
  | none => throw .malformed
  | some gs =>
    let ts ← tokens gs
    let (root, d) ← (Compose.document (4 * ts.length + 8)).run
      ⟨ts, #[], [], Compose.standardHandles⟩
    return ⟨d.nodes, root⟩

end PluginCompiler.Yaml
