import PluginCompiler.Proofs.Null.Document
import PluginCompiler.Proofs.Yaml.Alias

/-! Nodes that no alias shares. They have a single use, so that one role is all there is to know of
them. -/

set_option autoImplicit false

namespace PluginCompiler.Yaml.Graph

variable {g g' : Graph} {root id x : Nat} {r r' : Role} {hollow : Hollow}

/-- A node stands at a place among the children of a collection. -/
def Stands (g : Graph) (x holder place : Nat) : Prop := (g.children holder)[place]? = some x

/-- A node stands nowhere but at one place. -/
def OnlyAt (g : Graph) (x holder place : Nat) : Prop :=
  ∀ holder' place', g.Stands x holder' place' → holder' = holder ∧ place' = place

/-- A node that stands at one place at most. -/
def Unshared (g : Graph) (x : Nat) : Prop :=
  ∀ holder place, g.Stands x holder place → g.OnlyAt x holder place

/-- A node with its role, where neither the node nor a collection around it is shared. -/
inductive Alone (g : Graph) (root : Nat) : Role → Nat → Prop where
  | root (apart : ∀ holder, root ∉ g.children holder) : Alone g root .spec root
  | value {r : Role} {id : Nat} {p : Nat × Nat} (holder : Alone g root r id) (member : p ∈ g.pairs id)
      (unshared : g.Unshared p.2) : Alone g root (g.roleUnder r id p.1) p.2
  | item {r : Role} {id item : Nat} {items : List Nat} (holder : Alone g root r id)
      (content : (g.node id).content = .sequence items) (member : item ∈ items)
      (unshared : g.Unshared item) : Alone g root (g.roleOfItem r id) item

theorem Stands.mem_children {holder place : Nat} (stands : g.Stands x holder place) :
    x ∈ g.children holder :=
  List.mem_of_getElem? stands

theorem getElem?_flatMap_pairs (pairs : List (Nat × Nat)) (k : Nat) :
    (pairs.flatMap fun p => [p.1, p.2])[2 * k]? = pairs[k]?.map (·.1) ∧
      (pairs.flatMap fun p => [p.1, p.2])[2 * k + 1]? = pairs[k]?.map (·.2) := by
  induction pairs generalizing k with
  | nil => simp
  | cons p pairs ih =>
    cases k with
    | zero => simp
    | succ k => simpa [Nat.mul_add] using ih k

theorem Stands.bounds {holder place : Nat} (stands : g.Stands x holder place) :
    holder < g.nodes.size ∧ place < (g.children holder).length :=
  ⟨lt_size_of_children stands.mem_children, (List.getElem?_eq_some_iff.mp stands).1⟩

instance (g : Graph) (x holder place : Nat) : Decidable (g.Stands x holder place) :=
  inferInstanceAs (Decidable (_ = _))

instance (g : Graph) (x holder place : Nat) : Decidable (g.OnlyAt x holder place) :=
  decidable_of_iff (∀ holder' < g.nodes.size, ∀ place' < (g.children holder').length,
      g.Stands x holder' place' → holder' = holder ∧ place' = place)
    ⟨fun only holder' place' stands =>
      only holder' stands.bounds.1 place' stands.bounds.2 stands,
      fun only holder' _ place' _ => only holder' place'⟩

instance (g : Graph) (x : Nat) : Decidable (g.Unshared x) :=
  decidable_of_iff (∀ holder < g.nodes.size, ∀ place < (g.children holder).length,
      g.Stands x holder place → g.OnlyAt x holder place)
    ⟨fun unshared holder place stands =>
      unshared holder stands.bounds.1 place stands.bounds.2 stands,
      fun unshared holder _ place _ => unshared holder place⟩

/-- Keys stand at the even places of a mapping, each before its value. -/
theorem stands_of_pairs {p : Nat × Nat} (member : p ∈ g.pairs id) :
    ∃ k, (g.pairs id)[k]? = some p ∧ g.Stands p.1 id (2 * k) ∧ g.Stands p.2 id (2 * k + 1) := by
  obtain ⟨k, found⟩ := List.mem_iff_getElem?.mp member
  refine ⟨k, found, ?_⟩
  cases content : (g.node id).content with
  | scalar | sequence =>
    rw [pairs, content] at member
    cases member
  | mapping pairs =>
    rw [pairs_of_mapping content] at found
    obtain ⟨key, value⟩ := getElem?_flatMap_pairs pairs k
    rw [found] at key value
    simp only [Stands, children, content]
    exact ⟨key, value⟩

theorem stands_of_items {item : Nat} {items : List Nat} (content : (g.node id).content = .sequence items)
    (member : item ∈ items) : ∃ k, g.Stands item id k := by
  obtain ⟨k, found⟩ := List.mem_iff_getElem?.mp member
  refine ⟨k, ?_⟩
  simp only [Stands, children, content]
  exact found

theorem not_mem_pairs_of_sequence {items : List Nat} {p : Nat × Nat}
    (content : (g.node id).content = .sequence items) : p ∉ g.pairs id := by
  simp [pairs, content]

section
variable {holder holder' : Nat} {p q : Nat × Nat} {items items' : List Nat}

theorem Unshared.pair_eq (unshared : g.Unshared p.2) (member : p ∈ g.pairs holder)
    (member' : q ∈ g.pairs holder') (same : q.2 = p.2) : holder' = holder ∧ q = p := by
  obtain ⟨k, found, -, stands⟩ := stands_of_pairs member
  obtain ⟨k', found', -, stands'⟩ := stands_of_pairs member'
  obtain ⟨rfl, places⟩ := unshared _ _ stands _ _ (same ▸ stands')
  obtain rfl : k' = k := by omega
  exact ⟨rfl, Option.some.inj (found'.symm.trans found)⟩

theorem Unshared.ne_key (unshared : g.Unshared p.2) (member : p ∈ g.pairs holder)
    (member' : q ∈ g.pairs holder') : q.1 ≠ p.2 := by
  intro same
  obtain ⟨k, -, -, stands⟩ := stands_of_pairs member
  obtain ⟨k', -, stands', -⟩ := stands_of_pairs member'
  have places := (unshared _ _ stands _ _ (same ▸ stands')).2
  omega

theorem Unshared.not_in_pair (unshared : g.Unshared x)
    (content : (g.node holder).content = .sequence items) (member : x ∈ items)
    (member' : q ∈ g.pairs holder') : x ≠ q.1 ∧ x ≠ q.2 := by
  obtain ⟨k, stands⟩ := stands_of_items content member
  obtain ⟨k', -, key, value⟩ := stands_of_pairs member'
  have elsewhere {place : Nat} : ¬ g.Stands x holder' place := by
    intro other
    obtain ⟨rfl, -⟩ := unshared _ _ stands _ _ other
    exact not_mem_pairs_of_sequence content member'
  exact ⟨fun same => elsewhere (same ▸ key), fun same => elsewhere (same ▸ value)⟩

theorem Unshared.holder_eq (unshared : g.Unshared x)
    (content : (g.node holder).content = .sequence items) (member : x ∈ items)
    (content' : (g.node holder').content = .sequence items') (member' : x ∈ items') :
    holder' = holder := by
  obtain ⟨k, stands⟩ := stands_of_items content member
  obtain ⟨k', stands'⟩ := stands_of_items content' member'
  exact (unshared _ _ stands _ _ stands').1

end

theorem alone_root (apart : ∀ holder < g.nodes.size, root ∉ g.children holder) :
    g.Alone root .spec root :=
  .root fun holder member => apart holder (lt_size_of_children member) member

theorem Alone.apart (alone : g.Alone root r id) : ∀ holder, root ∉ g.children holder := by
  induction alone with
  | root apart => exact apart
  | value _ _ _ ih | item _ _ _ _ ih => exact ih

theorem Alone.role (alone : g.Alone root r id) (read : g.ReadAs root r' id) : r' = r := by
  -- Along the way from the root: at each step the node stands in one place only, so both ways agree.
  induction alone generalizing r' with
  | root apart =>
    generalize same : root = x at read
    cases read with
    | root => rfl
    | key _ member => exact absurd (mem_children_of_pairs member (.inl same)) (apart _)
    | value _ member => exact absurd (mem_children_of_pairs member (.inr same)) (apart _)
    | item _ content member =>
      obtain ⟨k, stands⟩ := stands_of_items content member
      exact absurd stands.mem_children (same ▸ apart _)
  | @value r id p holder member unshared ih =>
    generalize same : p.2 = x at read
    cases read with
    | root => exact absurd (mem_children_of_pairs member (.inr same.symm)) (holder.apart _)
    | key _ member' => exact absurd same.symm (unshared.ne_key member member')
    | value holder' member' =>
      obtain ⟨rfl, rfl⟩ := unshared.pair_eq member member' same.symm
      rw [ih holder']
    | item _ content member' =>
      subst same
      exact absurd rfl (unshared.not_in_pair content member' member).2
  | @item r id item items holder content member unshared ih =>
    cases read with
    | root =>
      obtain ⟨k, stands⟩ := stands_of_items content member
      exact absurd stands.mem_children (holder.apart _)
    | key _ member' => exact absurd rfl (unshared.not_in_pair content member member').1
    | value _ member' => exact absurd rfl (unshared.not_in_pair content member member').2
    | item holder' content' member' =>
      obtain rfl := unshared.holder_eq content member content' member'
      rw [ih holder']

theorem Alone.emptiedAt {hollow : Hollow} (alone : g.Alone root r id) (section_ : r.hollow? = some hollow)
    (null : (g.node id).tag = .null) (text : ∃ text, (g.node id).content = .scalar text)
    (tag : (g'.node id).tag = hollow.tag) (content : (g'.node id).content = hollow.content) :
    g.EmptiedAt g' root id hollow where
  null := null
  text := text
  section_ _ read := alone.role read ▸ section_
  tag := tag
  content := content

end PluginCompiler.Yaml.Graph
