import PluginCompiler.Yaml.Document

/-! What the data of a document is made of, and what can be wrong with a single node. A document is
read from the nodes that its root reaches. -/

set_option autoImplicit false

namespace PluginCompiler.Yaml.Graph

def parts (g : Graph) (id : Nat) : List Nat :=
  match (g.node id).tag, (g.node id).content with
  | .seq, .sequence items => items
  | .omap, .sequence items | .pairs, .sequence items =>
    (g.pairsOf items).flatMap fun p => [p.1, p.2]
  | .map, .mapping pairs | .set, .mapping pairs => pairs.flatMap fun p => [p.1, p.2]
  | _, _ => []

inductive Reached (g : Graph) (root : Nat) : Nat → Prop where
  | root : Reached g root root
  | part {id part : Nat} (reached : Reached g root id) (member : part ∈ g.parts id) :
      Reached g root part

def IsDict (g : Graph) (id : Nat) : Prop := (g.node id).tag = .map ∨ (g.node id).tag = .set

instance (g : Graph) (id : Nat) : Decidable (g.IsDict id) := inferInstanceAs (Decidable (_ ∨ _))

/-- A collection whose form fits its tag and whose keys can be keys, or a text with a value. -/
inductive Readable (g : Graph) (id : Nat) : Prop where
  | scalar (single : (g.node id).tag.isCollection = false) (value : Value)
      (read : g.scalarValue id = .ok value)
  | items (tag : (g.node id).tag = .seq) (items : List Nat)
      (content : (g.node id).content = .sequence items)
  | singles (tag : (g.node id).tag = .omap ∨ (g.node id).tag = .pairs) (items : List Nat)
      (content : (g.node id).content = .sequence items)
      (single : ∀ item ∈ items, ∃ p, (g.node item).content = .mapping [p])
  | dict (tag : g.IsDict id) (pairs : List (Nat × Nat))
      (content : (g.node id).content = .mapping pairs)
      (keys : ∀ p ∈ pairs, (g.node p.1).tag.isCollection = false)

def clashes (g : Graph) (a b : Nat) : Bool :=
  match g.scalarValue a, g.scalarValue b with
  | .ok x, .ok y => g.sameKey (a, x) (b, y)
  | _, _ => false

def Apart (g : Graph) (pairs : List (Nat × Nat)) : Prop :=
  pairs.Pairwise fun p q => g.clashes p.1 q.1 = false

instance (g : Graph) (pairs : List (Nat × Nat)) : Decidable (g.Apart pairs) :=
  inferInstanceAs (Decidable (List.Pairwise _ _))

/-- The first key of a mapping that is equal to an earlier one, with its value and its place. -/
def FirstRepeat (g : Graph) (id : Nat) (key : Value) (mark : Mark) : Prop :=
  ∃ done k value rest, g.pairs id = done ++ (k, value) :: rest ∧ g.Apart done ∧
    (∃ p ∈ done, g.clashes p.1 k = true) ∧ g.scalarValue k = .ok key ∧ (g.node k).start = mark

/-- No key lends pairs to its mapping or stands for it. -/
def Ordinary (g : Graph) (pairs : List (Nat × Nat)) : Prop :=
  ∀ p ∈ pairs, (g.node p.1).tag ≠ .merge ∧ (g.node p.1).tag ≠ .value

instance (g : Graph) (pairs : List (Nat × Nat)) : Decidable (g.Ordinary pairs) :=
  inferInstanceAs (Decidable (∀ p ∈ pairs, _))

inductive FaultAt (g : Graph) (id : Nat) : Fault → Prop where
  | scalar {fault : ValueFault} (single : (g.node id).tag.isCollection = false)
      (read : g.scalarValue id = .error fault) : FaultAt g id (.ofValue fault)
  | misfit (collection : (g.node id).tag.isCollection = true) (misfit : ¬ g.Readable id) :
      FaultAt g id .malformed
  | item {item : Nat} {items : List Nat} (dict : g.IsDict id)
      (content : (g.node id).content = .sequence (item :: items)) :
      FaultAt g id (.value (.pairOfNode (g.kindName item)))
  | text {text : String} (dict : g.IsDict id) (content : (g.node id).content = .scalar text)
      (filled : text ≠ "") : FaultAt g id (.value .pairOfText)
  | repeated {key : Value} {mark : Mark} (dict : g.IsDict id)
      (first : g.FirstRepeat id key mark) : FaultAt g id (.duplicateKey key mark)

/-- A fault of a node that the root reaches. -/
def Faulty (g : Graph) (root : Nat) (fault : Fault) : Prop :=
  ∃ id, g.Reached root id ∧ g.FaultAt id fault

variable {g : Graph} {id part : Nat} {pairs : List (Nat × Nat)} {value : Value}

theorem pairs_of_mapping (content : (g.node id).content = .mapping pairs) : g.pairs id = pairs := by
  rw [Graph.pairs, content]

theorem IsDict.isCollection (dict : g.IsDict id) : (g.node id).tag.isCollection = true := by
  rcases dict with tag | tag <;> rw [tag] <;> rfl

theorem lt_size_of_isCollection (collection : (g.node id).tag.isCollection = true) :
    id < g.nodes.size := by
  rcases Nat.lt_or_ge id g.nodes.size with inside | outside
  · exact inside
  · have missing : g.nodes[id]? = none := Array.getElem?_eq_none outside
    rw [Graph.node, missing] at collection
    cases collection

theorem length_le_of_collections {ids : List Nat} (nodup : ids.Nodup)
    (collections : ∀ id ∈ ids, (g.node id).tag.isCollection = true) :
    ids.length ≤ g.nodes.size := by
  have inside : ids ⊆ List.range g.nodes.size := fun id member =>
    List.mem_range.mpr (lt_size_of_isCollection (collections id member))
  simpa using List.Nodup.length_le_of_subset nodup inside

theorem parts_of_scalar (single : (g.node id).tag.isCollection = false) : g.parts id = [] := by
  cases tag : (g.node id).tag <;> simp_all [Graph.parts, Tag.isCollection]

theorem parts_of_items {items : List Nat} (tag : (g.node id).tag = .seq)
    (content : (g.node id).content = .sequence items) : g.parts id = items := by
  simp only [parts, tag, content]

theorem parts_of_singles {items : List Nat} (tag : (g.node id).tag = .omap ∨ (g.node id).tag = .pairs)
    (content : (g.node id).content = .sequence items) :
    g.parts id = (g.pairsOf items).flatMap fun p => [p.1, p.2] := by
  rcases tag with tag | tag <;> simp only [parts, tag, content]

theorem ne_seq_of_singles (tag : (g.node id).tag = .omap ∨ (g.node id).tag = .pairs) :
    (g.node id).tag ≠ .seq := by
  rcases tag with tag | tag <;> simp [tag]

theorem parts_of_dict (dict : g.IsDict id) (content : (g.node id).content = .mapping pairs) :
    g.parts id = pairs.flatMap fun p => [p.1, p.2] := by
  rcases dict with tag | tag <;> simp only [parts, tag, content]

theorem read_of_scalarValue (read : g.scalarValue id = .ok value) :
    ∃ text, (g.node id).tag.read text = .ok value := by
  simp only [scalarValue] at read
  split at read
  · cases read
  · cases found : g.textOf (g.nodes.size + 1) id with
    | error fault => rw [found] at read; cases read
    | ok text =>
      simp only [found, bind, Except.bind] at read
      split at read
      · cases read
      · exact ⟨text, read⟩

theorem tag_of_scalarValue (read : g.scalarValue id = .ok value) :
    (g.node id).tag.isCollection = false ∧ (g.node id).tag ≠ .merge ∧ (g.node id).tag ≠ .value := by
  obtain ⟨text, readText⟩ := read_of_scalarValue read
  cases tag : (g.node id).tag <;> simp_all [Tag.read, Tag.isCollection]

theorem clashes_of_ok {a b : Nat} {x y : Value} (first : g.scalarValue a = .ok x)
    (second : g.scalarValue b = .ok y) : g.clashes a b = g.sameKey (a, x) (b, y) := by
  rw [clashes, first, second]

theorem clashes_of_collection {a : Nat} (collection : (g.node a).tag.isCollection = true)
    (b : Nat) : g.clashes a b = false ∧ g.clashes b a = false := by
  have unread : ∀ x, g.scalarValue a ≠ .ok x := fun x read => by
    simp [(tag_of_scalarValue read).1] at collection
  unfold clashes
  cases readA : g.scalarValue a with
  | ok x => exact absurd readA (unread x)
  | error _ => cases g.scalarValue b <;> simp

theorem apart_concat {p : Nat × Nat} :
    g.Apart (pairs ++ [p]) ↔ g.Apart pairs ∧ ∀ q ∈ pairs, g.clashes q.1 p.1 = false := by
  simp [Apart, List.pairwise_append]

theorem not_readable_of_content (dict : g.IsDict id)
    (other : ∀ pairs, (g.node id).content ≠ .mapping pairs) : ¬ g.Readable id := by
  intro readable
  cases readable with
  | scalar single => simp [dict.isCollection] at single
  | items tag => rcases dict with same | same <;> rw [same] at tag <;> cases tag
  | singles tag =>
    rcases dict with same | same <;> rw [same] at tag <;> rcases tag with tag | tag <;> cases tag
  | dict _ pairs content => exact other pairs content

theorem not_readable_of_collection {p : Nat × Nat} (dict : g.IsDict id)
    (content : (g.node id).content = .mapping pairs) (member : p ∈ pairs)
    (collection : (g.node p.1).tag.isCollection = true) : ¬ g.Readable id := by
  intro readable
  cases readable with
  | scalar single => simp [dict.isCollection] at single
  | items tag items content' => simp [content] at content'
  | singles tag items content' => simp [content] at content'
  | dict _ pairs' content' keys =>
    rw [content] at content'
    cases content'
    simp [keys p member] at collection

/-- A node that can be read has no other fault than a repeated key. -/
theorem FaultAt.repeats {fault : Fault} (at_ : g.FaultAt id fault) (readable : g.Readable id) :
    g.IsDict id ∧ ∃ key mark, g.FirstRepeat id key mark := by
  cases at_ with
  | scalar single read =>
    cases readable with
    | scalar _ value readOk => rw [read] at readOk; cases readOk
    | items tag => rw [tag] at single; cases single
    | singles tag => rcases tag with tag | tag <;> rw [tag] at single <;> cases single
    | dict tag => rw [tag.isCollection] at single; cases single
  | misfit _ misfit => exact absurd readable misfit
  | item dict content =>
    exact absurd readable (not_readable_of_content dict fun pairs => by simp [content])
  | text dict content =>
    exact absurd readable (not_readable_of_content dict fun pairs => by simp [content])
  | repeated dict first => exact ⟨dict, _, _, first⟩

theorem firstRepeat_of_faultAt {key : Value} {mark : Mark}
    (at_ : g.FaultAt id (.duplicateKey key mark)) : g.IsDict id ∧ g.FirstRepeat id key mark := by
  generalize same : Fault.duplicateKey key mark = fault at at_
  cases at_ with
  | @scalar fault => cases fault <;> cases same
  | repeated dict first =>
    cases same
    exact ⟨dict, first⟩
  | _ => cases same

theorem not_firstRepeat_of_apart {key : Value} {mark : Mark} (apart : g.Apart (g.pairs id)) :
    ¬ g.FirstRepeat id key mark := by
  rintro ⟨done, k, value, rest, split, _, ⟨p, member, clash⟩, _⟩
  rw [split, Apart, List.pairwise_append] at apart
  have free := apart.2.2 p member (k, value) List.mem_cons_self
  rw [clash] at free
  cases free

end PluginCompiler.Yaml.Graph
