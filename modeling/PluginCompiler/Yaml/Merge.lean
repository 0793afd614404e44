import PluginCompiler.Yaml.Node

/-! Merge keys. The value of a merge key, a mapping or a sequence of mappings, lends its pairs to the
mapping around the key. Lent pairs come before the mapping's own, so that its own values count. -/

set_option autoImplicit false

namespace PluginCompiler.Yaml.Graph

def node (g : Graph) (id : Nat) : Node := (g.nodes[id]?).getD default

def pairs (g : Graph) (id : Nat) : List (Nat × Nat) :=
  match (g.node id).content with
  | .mapping pairs => pairs
  | _ => []

def setPairs (g : Graph) (id : Nat) (pairs : List (Nat × Nat)) : Graph :=
  { g with nodes := g.nodes.modify id fun n => { n with content := .mapping pairs } }

/-- A key that stands for the value of its mapping is a text among the other keys. -/
def asText (g : Graph) (key : Nat) : Graph :=
  if (g.node key).tag = .value then
    { g with nodes := g.nodes.modify key fun n => { n with tag := .str } }
  else g

def isMerge (g : Graph) (pair : Nat × Nat) : Bool := (g.node pair.1).tag == .merge

def lend (g : Graph) (lent : List (Nat × Nat)) (id : Nat) : Graph :=
  if lent.isEmpty then g else g.setPairs id (lent ++ g.pairs id)

/-- The pairs that the mappings of a sequence lend once they are merged themselves, those of the last
one first. -/
def lentByAll (merge : Graph → Nat → Option Graph) :
    Graph → List Nat → Option (Graph × List (Nat × Nat))
  | g, [] => some (g, [])
  | g, item :: rest =>
    match (g.node item).content with
    | .mapping _ => do
      let g ← merge g item
      let (after, more) ← lentByAll merge g rest
      return (after, more ++ g.pairs item)
    | _ => none

/-- Takes the merge keys of a mapping away, the first one first, and adds to `lent` what they lend.
There is no result if a value has no pairs to lend. -/
def mergeFrom : Nat → List (Nat × Nat) → Graph → Nat → Option Graph
  | 0, _, g, _ => some g
  | fuel + 1, lent, g, id =>
    match (g.pairs id).find? g.isMerge with
    | none => some (((g.pairs id).foldl (fun g pair => g.asText pair.1) g).lend lent id)
    | some (_, value) =>
      -- The key is gone before its value is merged, which may hold the mapping itself.
      let g := g.setPairs id ((g.pairs id).eraseP g.isMerge)
      match (g.node value).content with
      | .scalar _ => none
      | .mapping _ => do
        let g ← mergeFrom fuel [] g value
        mergeFrom fuel (lent ++ g.pairs value) g id
      | .sequence items => do
        let (g, more) ← lentByAll (mergeFrom fuel []) g items
        mergeFrom fuel (lent ++ more) g id

def mergeCount (g : Graph) : Nat :=
  (g.nodes.toList.flatMap fun n =>
    match n.content with
    | .mapping pairs => pairs
    | _ => []).countP g.isMerge

/-- A mapping with the pairs that its merge keys lend. Every step takes a merge key away for good, as
lent pairs have none. -/
def merged (g : Graph) (id : Nat) : Option Graph := g.mergeFrom (g.mergeCount + 1) [] id

end PluginCompiler.Yaml.Graph
