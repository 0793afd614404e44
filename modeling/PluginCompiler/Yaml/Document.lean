import PluginCompiler.Yaml.Merge
import PluginCompiler.Yaml.Scalar

/-! The data of a document. Every node gets its value at most once, collections in the order in which
they are first met; of several faults the first in that order is reported. Mappings are read by a rule
of their own: plainly, with merge keys, or so that two equal keys are a fault. -/

set_option autoImplicit false

namespace PluginCompiler.Yaml

inductive Fault where
  | malformed
  | noSuchCharacter (number : Nat)
  | duplicateKey (key : Value) (mark : Mark)
  | value (fault : ValueFault)

def Fault.ofStop : Stop → Fault
  | .malformed => .malformed
  | .noSuchCharacter number => .noSuchCharacter number

def Fault.ofValue : ValueFault → Fault
  | .malformed => .malformed
  | fault => .value fault

namespace Graph

/-- The text of a node under a tag that is no collection's. A mapping lends the text under its
special key. -/
def textOf (g : Graph) : Nat → Nat → Except ValueFault String
  | 0, _ => .error .malformed
  | fuel + 1, id =>
    match (g.node id).content with
    | .scalar text => .ok text
    | .sequence _ => .error .malformed
    | .mapping pairs =>
      match pairs.find? fun (k, _) => (g.node k).tag == .value with
      | some (_, v) => g.textOf fuel v
      | none => .error .malformed

def scalarValue (g : Graph) (id : Nat) : Except ValueFault Value := do
  let n := g.node id
  if n.tag = .value ∨ n.tag = .merge ∨ n.tag = .unknown then throw .malformed
  let text ← g.textOf (g.nodes.size + 1) id
  match n.tag, n.content with
  | .timestamp, .mapping _ => throw .timestampOfNodes
  | tag, _ => tag.read text

/-- Keys are equal if they are one node or have the same value. The undefined number of untagged
scalars is shared by all of them. -/
def sameKey (g : Graph) (a b : Nat × Value) : Bool :=
  a.1 == b.1 || a.2.sameKey b.2 || (isShared a && isShared b)
where
  isShared (k : Nat × Value) : Bool :=
    match k.2, (g.node k.1).content with
    | .float x, .scalar text => Decimal.isNaN x && isSharedUndefined text
    | _, _ => false

def kindName (g : Graph) (id : Nat) : String :=
  match (g.node id).content with
  | .scalar _ => "ScalarNode"
  | .sequence _ => "SequenceNode"
  | .mapping _ => "MappingNode"

end Graph

/-- A document that is being read: its nodes as merging has left them, those that have been met, the
collections among them whose entries are still to be visited, and the values of the others. -/
structure Visit where
  graph : Graph
  met : List Nat
  queue : List Nat
  scalars : List (Nat × Value)

namespace Visit

def start (g : Graph) : Visit := ⟨g, [], [], []⟩

def scalar (v : Visit) (id : Nat) : Value := (v.scalars.lookup id).getD .null

/-- A first visit of a node. Collections are put off, other nodes are read at once. -/
def enter (v : Visit) (id : Nat) : Except Fault Visit :=
  if v.met.contains id then .ok v
  else if (v.graph.node id).tag.isCollection then
    .ok { v with met := id :: v.met, queue := v.queue ++ [id] }
  else
    match v.graph.scalarValue id with
    | .ok value => .ok { v with met := id :: v.met, scalars := (id, value) :: v.scalars }
    | .error fault => .error (.ofValue fault)

/-- Visits of the pairs of a mapping; a collection as a key is refused when its turn comes. -/
def enterPairs : Visit → List (Nat × Nat) → Except Fault Visit
  | v, [] => .ok v
  | v, (k, value) :: rest => do
    let v ← v.enter k
    if (v.graph.node k).tag.isCollection then throw .malformed
    let v ← v.enter value
    v.enterPairs rest

def putPair (v : Visit) (pair : Nat × Nat) : List (Nat × Nat) → List (Nat × Nat)
  | [] => [pair]
  | (k, value) :: rest =>
    if v.graph.sameKey (k, v.scalar k) (pair.1, v.scalar pair.1) then (k, pair.2) :: rest
    else (k, value) :: v.putPair pair rest

def settle (v : Visit) (id : Nat) : Visit :=
  { v with graph := v.graph.setPairs id ((v.graph.pairs id).foldl (fun done p => v.putPair p done) []) }

abbrev Rule := Visit → Nat → Except Fault Visit

/-- Lent pairs are added before the pairs are visited. -/
def plainly : Rule := fun v id =>
  match (v.graph.node id).content with
  | .mapping _ =>
    match v.graph.merged id with
    | none => .error .malformed
    | some g => do
      let v ← { v with graph := g }.enterPairs (g.pairs id)
      return v.settle id
  | _ => .error .malformed

/-- Visits of the keys of a mapping, with a check against the keys before each. Collections as keys
are passed over here. -/
def enterKeys : Visit → List (Nat × Value) → List (Nat × Nat) → Except Fault Visit
  | v, _, [] => .ok v
  | v, seen, (k, _) :: rest => do
    let v ← v.enter k
    if (v.graph.node k).tag.isCollection then v.enterKeys seen rest
    else
      let key := v.scalar k
      if seen.any fun s => v.graph.sameKey s (k, key) then
        throw (.duplicateKey key (v.graph.node k).start)
      else v.enterKeys ((k, key) :: seen) rest

/-- The keys are compared with each other before anything else. -/
def distinctly : Rule := fun v id =>
  match (v.graph.node id).content with
  | .mapping pairs => do
    let v ← v.enterKeys [] pairs
    v.plainly id
  | .sequence (item :: _) => .error (.value (.pairOfNode (v.graph.kindName item)))
  | .scalar text => .error (if text = "" then .malformed else .value .pairOfText)
  | .sequence [] => .error .malformed

def enterSingles : Visit → List Nat → Except Fault Visit
  | v, [] => .ok v
  | v, id :: rest =>
    match (v.graph.node id).content with
    | .mapping [(k, value)] => do
      let v ← v.enter k
      let v ← v.enter value
      v.enterSingles rest
    | _ => .error .malformed

def enterEntries (rule : Rule) (v : Visit) (id : Nat) : Except Fault Visit :=
  let n := v.graph.node id
  match n.tag, n.content with
  | .seq, .sequence items => items.foldlM enter v
  | .omap, .sequence items | .pairs, .sequence items => v.enterSingles items
  | .map, _ | .set, _ => rule v id
  | _, _ => .error .malformed

def enterAll (rule : Rule) : Nat → Visit → Except Fault Visit
  | 0, v => .ok v
  | fuel + 1, v =>
    match v.queue with
    | [] => .ok v
    | id :: queue => do
      let v ← { v with queue := queue }.enterEntries rule id
      v.enterAll rule fuel

end Visit

def Graph.visit (g : Graph) (rule : Visit.Rule) (root : Nat) : Except Fault Visit := do
  let v ← (Visit.start g).enter root
  v.enterAll rule (g.nodes.size + 1)

/-- Values found so far of nodes that refer to nothing around them. -/
abbrev Known := List (Nat × Value)

/-- A value, the nodes around it that it refers to, and the values found on the way. -/
structure Found (α : Type) where
  result : α
  refers : List Nat
  known : Known

namespace Graph

def mergeRefers (a b : List Nat) : List Nat := a ++ b.filter fun id => !a.contains id

def gather (find : Known → Nat → Found Value) : Known → List Nat → Found (List Value)
  | known, [] => ⟨[], [], known⟩
  | known, id :: ids =>
    let a := find known id
    let b := gather find a.known ids
    ⟨a.result :: b.result, mergeRefers a.refers b.refers, b.known⟩

def gatherPairs (find : Known → Nat → Found Value) :
    Known → List (Nat × Nat) → Found (List (Value × Value))
  | known, [] => ⟨[], [], known⟩
  | known, (k, v) :: pairs =>
    let a := find known k
    let b := find a.known v
    let c := gatherPairs find b.known pairs
    ⟨(a.result, b.result) :: c.result, mergeRefers (mergeRefers a.refers b.refers) c.refers, c.known⟩

def pairsOf (g : Graph) (items : List Nat) : List (Nat × Nat) := items.flatMap g.pairs

def collect (g : Graph) (find : Known → Nat → Found Value) (known : Known) (n : Node) : Found Value :=
  match n.content with
  | .scalar _ => ⟨.null, [], known⟩
  | .sequence items =>
    if n.tag = .seq then
      let f := gather find known items
      ⟨.list f.result, f.refers, f.known⟩
    else
      let f := gatherPairs find known (g.pairsOf items)
      ⟨.list (f.result.map fun (k, v) => .tuple [k, v]), f.refers, f.known⟩
  | .mapping pairs =>
    let f := gatherPairs find known pairs
    if n.tag = .set then ⟨.set (f.result.map (·.1)), f.refers, f.known⟩
    else ⟨.map f.result, f.refers, f.known⟩

/-- The value of a node inside the collections `around`. One that refers back to itself becomes a
knot, and one that refers to nothing around it is kept for its other uses. -/
def valueIn (g : Graph) (scalar : Nat → Value) : Nat → List Nat → Known → Nat → Found Value
  | 0, _, known, _ => ⟨.null, [], known⟩
  | depth + 1, around, known, id =>
    if around.contains id then ⟨.again id, [id], known⟩
    else match known.lookup id with
      | some v => ⟨v, [], known⟩
      | none =>
        if (g.node id).tag.isCollection then
          let f := g.collect (g.valueIn scalar depth (id :: around)) known (g.node id)
          if f.refers.isEmpty then ⟨f.result, [], (id, f.result) :: f.known⟩
          else ⟨.knot id f.result, f.refers.filter (· != id), f.known⟩
        else ⟨scalar id, [], known⟩

end Graph

/-- A path through collections meets no node twice, so that it is no longer than there are nodes. -/
def Visit.value (v : Visit) (root : Nat) : Value :=
  (v.graph.valueIn v.scalar (v.graph.nodes.size + 2) [] [] root).result

def loadBy (rule : Visit.Rule) (source : List Char) : Except Fault Value := do
  let g ← (Graph.ofText source).mapError Fault.ofStop
  match g.root with
  | none => return .null
  | some root =>
    let v ← g.visit rule root
    return v.value root

/-- Data in which no mapping has two equal keys. -/
def load (source : List Char) : Except Fault Value := loadBy Visit.distinctly source

/-- Data with merge keys; of equal keys the last one counts. -/
def loadPlain (source : List Char) : Except Fault Value := loadBy Visit.plainly source

end PluginCompiler.Yaml
