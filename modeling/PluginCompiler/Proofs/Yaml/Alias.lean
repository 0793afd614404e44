import PluginCompiler.Proofs.Yaml.Loading
import PluginCompiler.Proofs.Yaml.Outline

/-! Aliases of the root. A value becomes a knot only if something inside it leads back to it, so that the
outermost mapping is plain data as long as no node has it as a part. -/

set_option autoImplicit false

namespace PluginCompiler.Yaml

variable {g : Graph} {root id x : Nat} {find : Known → Nat → Found Value} {known : Known}

namespace Graph

def children (g : Graph) (id : Nat) : List Nat :=
  match (g.node id).content with
  | .scalar _ => []
  | .sequence items => items
  | .mapping pairs => pairs.flatMap fun p => [p.1, p.2]

/-- A root that is no mapping, or that stands in no collection, so that no alias leads back to it. -/
def Unaliased (g : Graph) (root : Nat) : Prop :=
  (g.node root).tag = .map → ∀ id < g.nodes.size, root ∉ g.children id

instance (g : Graph) (root : Nat) : Decidable (g.Unaliased root) :=
  inferInstanceAs (Decidable (_ → ∀ id < g.nodes.size, _))

theorem lt_size_of_children (member : x ∈ g.children id) : id < g.nodes.size := by
  rcases Nat.lt_or_ge id g.nodes.size with inside | outside
  · exact inside
  · have missing : g.nodes[id]? = none := Array.getElem?_eq_none outside
    rw [children, node, missing] at member
    cases member

theorem mem_children_of_pairs {p : Nat × Nat} (member : p ∈ g.pairs id) (part : x = p.1 ∨ x = p.2) :
    x ∈ g.children id := by
  rw [pairs] at member
  rw [children]
  split at member
  · next pairs content =>
    rw [content]
    exact List.mem_flatMap.mpr ⟨p, member, by simpa using part⟩
  · cases member

theorem mem_mergeRefers {a b : List Nat} : x ∈ mergeRefers a b ↔ x ∈ a ∨ x ∈ b := by
  rw [mergeRefers, List.mem_append, List.mem_filter]
  by_cases early : x ∈ a <;> simp [early]

theorem mem_refers_of_gather {ids : List Nat} (member : x ∈ (gather find known ids).refers) :
    ∃ id ∈ ids, ∃ known, x ∈ (find known id).refers := by
  induction ids generalizing known with
  | nil => cases member
  | cons id rest ih =>
    rcases mem_mergeRefers.mp member with here | later
    · exact ⟨id, List.mem_cons_self, known, here⟩
    · obtain ⟨other, inside, refers⟩ := ih later
      exact ⟨other, List.mem_cons_of_mem id inside, refers⟩

theorem mem_refers_of_gatherPairs {pairs : List (Nat × Nat)}
    (member : x ∈ (gatherPairs find known pairs).refers) :
    ∃ p ∈ pairs, ∃ id, (id = p.1 ∨ id = p.2) ∧ ∃ known, x ∈ (find known id).refers := by
  induction pairs generalizing known with
  | nil => cases member
  | cons p rest ih =>
    rcases mem_mergeRefers.mp member with here | later
    · rcases mem_mergeRefers.mp here with key | value
      · exact ⟨p, List.mem_cons_self, p.1, .inl rfl, _, key⟩
      · exact ⟨p, List.mem_cons_self, p.2, .inr rfl, _, value⟩
    · obtain ⟨q, inside, refers⟩ := ih later
      exact ⟨q, List.mem_cons_of_mem p inside, refers⟩

theorem mem_refers_of_collect (member : x ∈ (g.collect find known (g.node id)).refers) :
    ∃ holder part known, part ∈ g.children holder ∧ x ∈ (find known part).refers := by
  unfold collect at member
  split at member
  · cases member
  · next items content =>
    split at member
    · obtain ⟨part, inside, known, refers⟩ := mem_refers_of_gather member
      exact ⟨id, part, known, by rw [children, content]; exact inside, refers⟩
    · obtain ⟨p, inside, part, own, known, refers⟩ := mem_refers_of_gatherPairs member
      obtain ⟨item, _, lent⟩ := List.mem_flatMap.mp inside
      exact ⟨item, part, known, mem_children_of_pairs lent own, refers⟩
  · next pairs content =>
    have gathered : x ∈ (gatherPairs find known pairs).refers := by
      dsimp only at member
      split at member <;> exact member
    obtain ⟨p, inside, part, own, known, refers⟩ := mem_refers_of_gatherPairs gathered
    have here : p ∈ g.pairs id := by rw [pairs_of_mapping content]; exact inside
    exact ⟨id, part, known, mem_children_of_pairs here own, refers⟩

variable {scalar : Nat → Value} {around : List Nat}

/-- A node refers only to nodes around it, and only to one that is itself or stands in a collection. -/
theorem mem_refers_of_valueIn {depth : Nat}
    (member : x ∈ (g.valueIn scalar depth around known id).refers) :
    x ∈ around ∧ (x = id ∨ ∃ holder, x ∈ g.children holder) := by
  -- A reference is made where a node is met again, and passed on outwards up to that node.
  induction depth generalizing around known id with
  | zero => cases member
  | succ depth ih =>
    rw [valueIn] at member
    split at member
    · next again =>
      cases List.mem_singleton.mp member
      exact ⟨by simpa using again, .inl rfl⟩
    · split at member
      · cases member
      · split at member
        · dsimp only at member
          split at member
          · cases member
          · obtain ⟨refers, other⟩ := List.mem_filter.mp member
            obtain ⟨holder, part, known, inside, refers⟩ := mem_refers_of_collect refers
            obtain ⟨within, kept⟩ := ih refers
            have different : x ≠ id := by simpa using other
            refine ⟨(List.mem_cons.mp within).resolve_left different, .inr ?_⟩
            rcases kept with rfl | held
            · exact ⟨holder, inside⟩
            · exact held
        · cases member

end Graph

theorem collect_ne_knot (n : Node) (label : Nat) (body : Value) :
    (g.collect find known n).result ≠ .knot label body := by
  unfold Graph.collect
  split
  · nofun
  · split <;> nofun
  · dsimp only
    split <;> nofun

theorem value_ne_knot {v : Visit} {P : Nat → Prop} (visited : g.Visited root P v)
    (unaliased : g.Unaliased root) (tag : (g.node root).tag = .map) (label : Nat) (body : Value) :
    v.value root ≠ .knot label body := by
  have apart (id : Nat) : root ∉ g.children id := fun member =>
    unaliased tag id (Graph.lt_size_of_children member) member
  have collection : (g.node root).tag.isCollection = true := by rw [tag]; rfl
  -- Nothing but the root is around its parts, and the root stands nowhere.
  have free : (g.collect (g.valueIn v.scalar (g.nodes.size + 1) [root]) [] (g.node root)).refers = [] := by
    refine List.eq_nil_iff_forall_not_mem.mpr fun x member => ?_
    obtain ⟨holder, part, known, inside, refers⟩ := Graph.mem_refers_of_collect member
    obtain ⟨within, kept⟩ := Graph.mem_refers_of_valueIn refers
    cases List.mem_singleton.mp within
    rcases kept with rfl | ⟨holder', held⟩
    · exact apart holder inside
    · exact apart holder' held
  rw [Visit.value, visited.graph, Graph.valueIn]
  simp only [List.contains_nil, Bool.false_eq_true, ↓reduceIte, List.lookup_nil, collection, free,
    List.isEmpty_nil]
  exact collect_ne_knot _ _ _

theorem inDocument_of_all {source : List Char} {P : Graph → Nat → Prop} [∀ g root, Decidable (P g root)]
    (all : (Graph.ofText source).toOption.all (fun g => g.root.all fun root => decide (P g root)) = true) :
    InDocument source P := by
  intro g root composed rooted
  rw [composed] at all
  simpa [Except.toOption, rooted] using all

/-- The data of a document that is a mapping, and to which no alias leads back, is a mapping without
any opening. -/
theorem value_of_unaliased {v : Visit} {P : Nat → Prop} {entries : List (Value × Value)}
    (visited : g.Visited root P v) (unaliased : g.Unaliased root)
    (opened : (v.value root).opened = .map entries) : v.value root = .map entries := by
  rcases depicts_value visited with ⟨other, depicts⟩ | ⟨tag, own, plain | knotted, _⟩
  · have depicts := depicts_opened depicts
    rw [opened] at depicts
    exact absurd depicts.1 other
  · rw [plain] at opened ⊢
    exact opened
  · exact absurd knotted (value_ne_knot visited unaliased tag root _)

end PluginCompiler.Yaml
