import Mathlib.Data.List.Find
import PluginCompiler.Proofs.Null.Data
import PluginCompiler.Proofs.Yaml.Loading

/-! Documents in which null sections have become empty ones. The roles of nodes go from the root along
everything that a node holds, so that a node which several collections share has the roles of all its
uses; only a node with no other use than as a section is emptied. -/

set_option autoImplicit false

namespace PluginCompiler

def Hollow.tag : Hollow → Yaml.Tag
  | list => .seq
  | map => .map

def Hollow.content : Hollow → Yaml.Content
  | list => .sequence []
  | map => .mapping []

namespace Yaml.Graph

def name? (g : Graph) (key : Nat) : Option String :=
  match g.scalarValue key with
  | .ok value => value.name?
  | .error _ => none

def roleUnder (g : Graph) (r : Role) (id key : Nat) : Role :=
  if (g.node id).tag = .map then r.entry (g.name? key) else .other

def roleOfItem (g : Graph) (r : Role) (id : Nat) : Role :=
  if (g.node id).tag = .seq then r.item else .other

/-- What nodes are read as by those that hold them. -/
inductive ReadAs (g : Graph) (root : Nat) : Role → Nat → Prop where
  | root : ReadAs g root .spec root
  | key {r : Role} {id : Nat} {p : Nat × Nat} (holder : ReadAs g root r id) (member : p ∈ g.pairs id) :
      ReadAs g root .other p.1
  | value {r : Role} {id : Nat} {p : Nat × Nat} (holder : ReadAs g root r id)
      (member : p ∈ g.pairs id) : ReadAs g root (g.roleUnder r id p.1) p.2
  | item {r : Role} {id item : Nat} {items : List Nat} (holder : ReadAs g root r id)
      (content : (g.node id).content = .sequence items) (member : item ∈ items) :
      ReadAs g root (g.roleOfItem r id) item

/-- A node that another document has as it is, except for where it starts. -/
structure KeptAt (g g' : Graph) (id : Nat) : Prop where
  tag : (g'.node id).tag = (g.node id).tag
  content : (g'.node id).content = (g.node id).content

/-- A null node that is read as a section only, in place of which another document has the empty
collection that null is taken for there. -/
structure EmptiedAt (g g' : Graph) (root id : Nat) (hollow : Hollow) : Prop where
  null : (g.node id).tag = .null
  text : ∃ text, (g.node id).content = .scalar text
  section_ : ∀ r, g.ReadAs root r id → r.hollow? = some hollow
  tag : (g'.node id).tag = hollow.tag
  content : (g'.node id).content = hollow.content

/-- A document, and the same document with empty collections in place of some null sections. -/
structure Emptied (g g' : Graph) (root : Nat) : Prop where
  size : g'.nodes.size = g.nodes.size
  node : ∀ id, g.KeptAt g' id ∨ ∃ hollow, g.EmptiedAt g' root id hollow

variable {g g' : Graph} {root id : Nat} {r : Role} {hollow : Hollow}

@[simp] theorem roleUnder_other (id key : Nat) : g.roleUnder .other id key = .other := by
  simp [roleUnder]

@[simp] theorem roleOfItem_other (id : Nat) : g.roleOfItem .other id = .other := by
  simp [roleOfItem, Role.item]

theorem readAs_item {item : Nat} {items : List Nat} (read : g.ReadAs root r id)
    (content : (g.node id).content = .sequence items) (other : (g.node id).tag ≠ .seq)
    (member : item ∈ items) : g.ReadAs root .other item := by
  have held := ReadAs.item read content member
  rwa [roleOfItem, if_neg other] at held

theorem readAs_of_pairs {x : Nat} (read : g.ReadAs root r id)
    (member : x ∈ (g.pairs id).flatMap fun p => [p.1, p.2]) : ∃ r, g.ReadAs root r x := by
  obtain ⟨p, inside, own⟩ := List.mem_flatMap.mp member
  rcases List.mem_cons.mp own with rfl | own
  · exact ⟨_, .key read inside⟩
  · cases List.mem_singleton.mp own
    exact ⟨_, .value read inside⟩

theorem readAs_of_pairsOf {items : List Nat} {p : Nat × Nat} (read : g.ReadAs root r id)
    (content : (g.node id).content = .sequence items) (other : (g.node id).tag ≠ .seq)
    (member : p ∈ g.pairsOf items) : g.ReadAs root .other p.1 ∧ g.ReadAs root .other p.2 := by
  obtain ⟨item, listed, lent⟩ := List.mem_flatMap.mp member
  have held := readAs_item read content other listed
  exact ⟨.key held lent, by simpa using ReadAs.value held lent⟩

theorem readAs_of_parts {x : Nat} (read : g.ReadAs root r id) (member : x ∈ g.parts id) :
    ∃ r, g.ReadAs root r x := by
  have lent {items : List Nat} (content : (g.node id).content = .sequence items)
      (other : (g.node id).tag ≠ .seq) (member : x ∈ (g.pairsOf items).flatMap fun p => [p.1, p.2]) :
      ∃ r, g.ReadAs root r x := by
    obtain ⟨p, inside, own⟩ := List.mem_flatMap.mp member
    obtain ⟨key, value⟩ := readAs_of_pairsOf read content other inside
    rcases List.mem_cons.mp own with rfl | own
    · exact ⟨_, key⟩
    · cases List.mem_singleton.mp own
      exact ⟨_, value⟩
  rw [parts] at member
  split at member
  · next content => exact ⟨_, .item read content member⟩
  · next tag content => exact lent content (by simp [tag]) member
  · next tag content => exact lent content (by simp [tag]) member
  · next content => exact readAs_of_pairs read (by rwa [pairs_of_mapping content])
  · next content => exact readAs_of_pairs read (by rwa [pairs_of_mapping content])
  · cases member

namespace KeptAt

theorem pairs (kept : g.KeptAt g' id) : g'.pairs id = g.pairs id := by
  rw [Graph.pairs, Graph.pairs, kept.content]

theorem kindName (kept : g.KeptAt g' id) : g'.kindName id = g.kindName id := by
  rw [Graph.kindName, Graph.kindName, kept.content]

theorem sameKey {a b : Nat × Value} (first : g.KeptAt g' a.1) (second : g.KeptAt g' b.1) :
    g'.sameKey a b = g.sameKey a b := by
  simp only [Graph.sameKey, Graph.sameKey.isShared, first.content, second.content]

end KeptAt

namespace EmptiedAt

theorem scalarValue (at_ : g.EmptiedAt g' root id hollow) : g.scalarValue id = .ok .null := by
  obtain ⟨text, content⟩ := at_.text
  simp [Graph.scalarValue, Graph.textOf, at_.null, content, Tag.read, bind, Except.bind]

theorem single (at_ : g.EmptiedAt g' root id hollow) : (g.node id).tag.isCollection = false := by
  rw [at_.null]
  rfl

theorem isCollection (at_ : g.EmptiedAt g' root id hollow) : (g'.node id).tag.isCollection = true := by
  rw [at_.tag]
  cases hollow <;> rfl

theorem parts (at_ : g.EmptiedAt g' root id hollow) : g'.parts id = [] := by
  cases hollow <;> simp [Graph.parts, at_.tag, at_.content, Hollow.tag, Hollow.content]

end EmptiedAt

namespace Emptied

theorem kept_of_other (emptied : g.Emptied g' root) (read : g.ReadAs root .other id) :
    g.KeptAt g' id := by
  rcases emptied.node id with kept | ⟨hollow, at_⟩
  · exact kept
  · cases at_.section_ .other read

theorem textOf (emptied : g.Emptied g' root) (kept : g.KeptAt g' id)
    (inside : ∀ p ∈ g.pairs id, g.ReadAs root .other p.1 ∧ g.ReadAs root .other p.2) (fuel : Nat) :
    g'.textOf fuel id = g.textOf fuel id := by
  induction fuel generalizing id with
  | zero => rfl
  | succ fuel ih =>
    rw [Graph.textOf, Graph.textOf, kept.content]
    cases content : (g.node id).content with
    | scalar | sequence => rfl
    | mapping pairs =>
      rw [pairs_of_mapping content] at inside
      have found : (pairs.find? fun p => (g'.node p.1).tag == .value) =
          pairs.find? fun p => (g.node p.1).tag == .value :=
        List.find?_congr fun p member => by rw [(emptied.kept_of_other (inside p member).1).tag]
      simp only [found]
      split
      · next k v first =>
        have read := (inside _ (List.mem_of_find?_eq_some first)).2
        refine ih (emptied.kept_of_other read) fun p member => ⟨.key read member, ?_⟩
        simpa using ReadAs.value read member
      · rfl

theorem scalarValue (emptied : g.Emptied g' root) (read : g.ReadAs root r id) (kept : g.KeptAt g' id)
    (single : (g.node id).tag.isCollection = false) : g'.scalarValue id = g.scalarValue id := by
  have plain (key : Nat) : g.roleUnder r id key = .other := by
    rw [roleUnder, if_neg]
    intro tag
    rw [tag] at single
    cases single
  have text := emptied.textOf kept (fun p member =>
    ⟨.key read member, plain p.1 ▸ ReadAs.value read member⟩) (g.nodes.size + 1)
  simp only [Graph.scalarValue, kept.tag, kept.content, emptied.size, text]

theorem pairsOf {items : List Nat} (emptied : g.Emptied g' root) (read : g.ReadAs root r id)
    (content : (g.node id).content = .sequence items) (other : (g.node id).tag ≠ .seq) :
    g'.pairsOf items = g.pairsOf items :=
  List.flatMap_congr fun _ member =>
    (emptied.kept_of_other (readAs_item read content other member)).pairs

theorem parts (emptied : g.Emptied g' root) (read : g.ReadAs root r id) (kept : g.KeptAt g' id) :
    g'.parts id = g.parts id := by
  rw [Graph.parts, Graph.parts, kept.tag, kept.content]
  split
  · rfl
  · next tag content => rw [emptied.pairsOf read content (by simp [tag])]
  · next tag content => rw [emptied.pairsOf read content (by simp [tag])]
  · rfl
  · rfl
  · rfl

theorem readAs_of_reached (emptied : g.Emptied g' root) (reached : g'.Reached root id) :
    ∃ r, g.ReadAs root r id := by
  induction reached with
  | root => exact ⟨.spec, .root⟩
  | @part id part _ member ih =>
    obtain ⟨r, read⟩ := ih
    rcases emptied.node id with kept | ⟨hollow, at_⟩
    · rw [emptied.parts read kept] at member
      exact readAs_of_parts read member
    · rw [at_.parts] at member
      cases member

end Emptied

end Yaml.Graph

end PluginCompiler
