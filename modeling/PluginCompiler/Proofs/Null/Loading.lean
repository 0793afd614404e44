import PluginCompiler.Proofs.Null.Visit

/-! The data of a document beside that of the same document with emptied sections. Both are read node by
node; what has been found for a node may be used again in all the roles that the node is read in. -/

set_option autoImplicit false

namespace PluginCompiler.Yaml

open Value (EmptiedAll EmptiedEntries emptied_of_single eq_of_emptied)

variable {g g' : Graph} {root id : Nat} {r : Role} {find find' : Known → Nat → Found Value}
  {known known' : Known}

namespace Graph

/-- What the labels of knots are read as, which are nodes. -/
def roles (g : Graph) (root : Nat) : Nat → Role → Prop := fun id r => g.ReadAs root r id

structure AlikeAt (g : Graph) (root id : Nat) (v w : Value) : Prop where
  emptied : ∀ r, g.ReadAs root r id → Value.Emptied (g.roles root) r v w
  read : (g.node id).tag.isCollection = false → g.scalarValue id = .ok v

/-- Values found so far in both documents. An empty section may have been found in the second one. -/
structure KnownAlike (g g' : Graph) (root : Nat) (known known' : Known) : Prop where
  single : ∀ id, (g.node id).tag.isCollection = false → known.lookup id = none
  kept : ∀ id, g.KeptAt g' id → Option.Rel (g.AlikeAt root id) (known.lookup id) (known'.lookup id)
  hollow : ∀ id hollow, g.EmptiedAt g' root id hollow → ∀ w ∈ known'.lookup id, w = hollow.value

structure FoundAt (g g' : Graph) (root id : Nat) (a a' : Found Value) : Prop where
  result : g.AlikeAt root id a.result a'.result
  refers : a'.refers = a.refers
  known : KnownAlike g g' root a.known a'.known

def FindsAlike (g g' : Graph) (root : Nat) (find find' : Known → Nat → Found Value) (ids : List Nat) :
    Prop :=
  ∀ id ∈ ids, ∀ known known', KnownAlike g g' root known known' →
    g.FoundAt g' root id (find known id) (find' known' id)

theorem FindsAlike.tail {ids : List Nat} (finds : FindsAlike g g' root find find' (id :: ids)) :
    FindsAlike g g' root find find' ids :=
  fun other member => finds other (List.mem_cons_of_mem id member)

theorem alike_gather {ids : List Nat} (finds : FindsAlike g g' root find find' ids)
    (alike : KnownAlike g g' root known known') :
    (∀ r, (∀ id ∈ ids, g.ReadAs root r id) → EmptiedAll (g.roles root) r
        (gather find known ids).result (gather find' known' ids).result) ∧
      (gather find' known' ids).refers = (gather find known ids).refers ∧
      KnownAlike g g' root (gather find known ids).known (gather find' known' ids).known := by
  induction ids generalizing known known' with
  | nil => exact ⟨fun _ _ => rfl, rfl, alike⟩
  | cons id rest ih =>
    have first := finds id List.mem_cons_self known known' alike
    obtain ⟨results, refers, further⟩ := ih finds.tail first.known
    refine ⟨fun r read => ⟨_, _, rfl, first.result.emptied r (read id List.mem_cons_self),
      results r fun other member => read other (List.mem_cons_of_mem id member)⟩, ?_, further⟩
    simp only [gather, first.refers, refers]

inductive PairsAlike (g : Graph) (root : Nat) :
    List (Nat × Nat) → List (Value × Value) → List (Value × Value) → Prop where
  | nil : PairsAlike g root [] [] []
  | cons {p : Nat × Nat} {pairs : List (Nat × Nat)} {e e' : Value × Value}
      {entries entries' : List (Value × Value)} (key : g.AlikeAt root p.1 e.1 e'.1)
      (value : g.AlikeAt root p.2 e.2 e'.2) (rest : PairsAlike g root pairs entries entries') :
      PairsAlike g root (p :: pairs) (e :: entries) (e' :: entries')

theorem alike_gatherPairs {pairs : List (Nat × Nat)}
    (finds : FindsAlike g g' root find find' (pairs.flatMap fun p => [p.1, p.2]))
    (alike : KnownAlike g g' root known known') :
    PairsAlike g root pairs (gatherPairs find known pairs).result
        (gatherPairs find' known' pairs).result ∧
      (gatherPairs find' known' pairs).refers = (gatherPairs find known pairs).refers ∧
      KnownAlike g g' root (gatherPairs find known pairs).known
        (gatherPairs find' known' pairs).known := by
  induction pairs generalizing known known' with
  | nil => exact ⟨.nil, rfl, alike⟩
  | cons p rest ih =>
    have key := finds p.1 (by simp) known known' alike
    have value := finds p.2 (by simp) _ _ key.known
    obtain ⟨entries, refers, further⟩ := ih finds.tail.tail value.known
    refine ⟨.cons key.result value.result entries, ?_, further⟩
    simp only [gatherPairs, key.refers, value.refers, refers]

namespace PairsAlike

variable {pairs : List (Nat × Nat)} {entries entries' : List (Value × Value)}

theorem emptiedEntries (alike : PairsAlike g root pairs entries entries')
    (keys : ∀ p ∈ pairs, (g.node p.1).tag.isCollection = false ∧ g.ReadAs root .other p.1)
    (values : ∀ p ∈ pairs, g.ReadAs root (r.entry (g.name? p.1)) p.2) :
    EmptiedEntries (g.roles root) r entries entries' := by
  induction alike with
  | nil => rfl
  | @cons p pairs e e' entries entries' key value rest ih =>
    obtain ⟨k, v⟩ := e
    obtain ⟨k', w⟩ := e'
    obtain ⟨single, read⟩ := keys p List.mem_cons_self
    have same : k' = k := eq_of_emptied k k' (key.emptied .other read)
    have found : g.scalarValue p.1 = .ok k := key.read single
    have named : g.name? p.1 = k.name? := by rw [name?, found]
    obtain ⟨text, readText⟩ := read_of_scalarValue found
    subst same
    refine ⟨w, entries', rfl, isSingle_of_read readText, ?_, ih ?_ ?_⟩
    · exact value.emptied _ (named ▸ values p List.mem_cons_self)
    · exact fun q member => keys q (List.mem_cons_of_mem p member)
    · exact fun q member => values q (List.mem_cons_of_mem p member)

theorem emptiedAll_keys (alike : PairsAlike g root pairs entries entries')
    (keys : ∀ p ∈ pairs, g.ReadAs root .other p.1) :
    EmptiedAll (g.roles root) .other (entries.map (·.1)) (entries'.map (·.1)) := by
  induction alike with
  | nil => rfl
  | @cons p _ _ _ _ _ key _ _ ih =>
    exact ⟨_, _, rfl, key.emptied .other (keys p List.mem_cons_self),
      ih fun q member => keys q (List.mem_cons_of_mem p member)⟩

theorem emptiedAll_tuples (alike : PairsAlike g root pairs entries entries')
    (read : ∀ p ∈ pairs, g.ReadAs root .other p.1 ∧ g.ReadAs root .other p.2) :
    EmptiedAll (g.roles root) r (entries.map fun (k, v) => .tuple [k, v])
      (entries'.map fun (k, v) => .tuple [k, v]) := by
  induction alike with
  | nil => rfl
  | @cons p _ e e' _ _ key value _ ih =>
    obtain ⟨first, second⟩ := read p List.mem_cons_self
    exact ⟨_, _, rfl, ⟨_, rfl, _, _, rfl, key.emptied .other first, _, _, rfl,
      value.emptied .other second, rfl⟩, ih fun q member => read q (List.mem_cons_of_mem p member)⟩

end PairsAlike

structure CollectedAlike (g g' : Graph) (root id : Nat) (f f' : Found Value) : Prop where
  results : ∀ r, g.ReadAs root r id → Value.Emptied (g.roles root) r f.result f'.result
  other : IsSingle f.result = false
  refers : f'.refers = f.refers
  known : KnownAlike g g' root f.known f'.known

section
variable {items : List Nat} {pairs : List (Nat × Nat)} (kept : g.KeptAt g' id)
  (finds : FindsAlike g g' root find find' (g.parts id)) (alike : KnownAlike g g' root known known')
include kept finds alike

theorem alike_collect_items (tag : (g.node id).tag = .seq)
    (content : (g.node id).content = .sequence items) :
    CollectedAlike g g' root id (g.collect find known (g.node id))
      (g'.collect find' known' (g'.node id)) := by
  rw [Graph.parts_of_items tag content] at finds
  obtain ⟨results, refers, further⟩ := alike_gather finds alike
  simp only [collect, kept.content, kept.tag, content, tag, ↓reduceIte]
  refine ⟨fun r read => ⟨_, rfl, results _ fun item member => ?_⟩, rfl, refers, further⟩
  have held := ReadAs.item read content member
  rwa [roleOfItem, if_pos tag] at held

theorem alike_collect_singles (emptied : g.Emptied g' root) (read : g.ReadAs root r id)
    (tag : (g.node id).tag = .omap ∨ (g.node id).tag = .pairs)
    (content : (g.node id).content = .sequence items) :
    CollectedAlike g g' root id (g.collect find known (g.node id))
      (g'.collect find' known' (g'.node id)) := by
  have other := Graph.ne_seq_of_singles tag
  rw [Graph.parts_of_singles tag content] at finds
  obtain ⟨entries, refers, further⟩ := alike_gatherPairs finds alike
  simp only [collect, kept.content, kept.tag, content, other, ↓reduceIte,
    emptied.pairsOf read content other]
  refine ⟨fun r read => ⟨_, rfl, entries.emptiedAll_tuples fun p member => ?_⟩, rfl, refers, further⟩
  exact readAs_of_pairsOf read content other member

theorem alike_collect_dict (tag : g.IsDict id) (content : (g.node id).content = .mapping pairs)
    (keys : ∀ p ∈ pairs, (g.node p.1).tag.isCollection = false) :
    CollectedAlike g g' root id (g.collect find known (g.node id))
      (g'.collect find' known' (g'.node id)) := by
  have held {r : Role} {p : Nat × Nat} (read : g.ReadAs root r id) (member : p ∈ pairs) :
      g.ReadAs root .other p.1 ∧ g.ReadAs root (g.roleUnder r id p.1) p.2 := by
    rw [← pairs_of_mapping content] at member
    exact ⟨.key read member, .value read member⟩
  rw [parts_of_dict tag content] at finds
  obtain ⟨entries, refers, further⟩ := alike_gatherPairs finds alike
  simp only [collect, kept.content, kept.tag, content]
  rcases tag with tag | tag
  · simp only [tag, reduceCtorEq, ↓reduceIte]
    refine ⟨fun r read => ⟨_, rfl, entries.emptiedEntries (fun p member => ?_) fun p member => ?_⟩,
      rfl, refers, further⟩
    · exact ⟨keys p member, (held read member).1⟩
    · have value := (held read member).2
      rwa [roleUnder, if_pos tag] at value
  · simp only [tag, ↓reduceIte]
    exact ⟨fun r read => ⟨_, rfl, entries.emptiedAll_keys fun p member => (held read member).1⟩, rfl,
      refers, further⟩

end

theorem alike_collect (emptied : g.Emptied g' root) (read : g.ReadAs root r id)
    (kept : g.KeptAt g' id) (readable : g.Readable id)
    (collection : (g.node id).tag.isCollection = true)
    (finds : FindsAlike g g' root find find' (g.parts id))
    (alike : KnownAlike g g' root known known') :
    CollectedAlike g g' root id (g.collect find known (g.node id))
      (g'.collect find' known' (g'.node id)) := by
  cases readable with
  | scalar single => simp [single] at collection
  | items tag items content => exact alike_collect_items kept finds alike tag content
  | singles tag items content => exact alike_collect_singles kept finds alike emptied read tag content
  | dict tag pairs content keys => exact alike_collect_dict kept finds alike tag content keys

theorem collect_of_hollow {hollow : Hollow} (at_ : g.EmptiedAt g' root id hollow) (known' : Known) :
    g'.collect find' known' (g'.node id) = ⟨hollow.value, [], known'⟩ := by
  cases hollow <;>
    simp [collect, at_.tag, at_.content, Hollow.tag, Hollow.content, Hollow.value, gather, gatherPairs]

/-! ## Nodes -/

theorem lookup_cons_self {known : Known} (id : Nat) (v : Value) :
    List.lookup id ((id, v) :: known) = some v := by
  simp

theorem lookup_cons_of_ne {known : Known} {id other : Nat} (apart : other ≠ id) (v : Value) :
    List.lookup other ((id, v) :: known) = known.lookup other := by
  simp [List.lookup_cons, beq_eq_false_iff_ne.mpr apart]

namespace KnownAlike

variable {v w : Value}

theorem add (alike : KnownAlike g g' root known known') (kept : g.KeptAt g' id)
    (collection : (g.node id).tag.isCollection = true) (result : g.AlikeAt root id v w) :
    KnownAlike g g' root ((id, v) :: known) ((id, w) :: known') := by
  refine ⟨fun other single => ?_, fun other stays => ?_, fun other hollow at_ => ?_⟩
  · have apart : other ≠ id := by
      rintro rfl
      rw [collection] at single
      cases single
    rw [lookup_cons_of_ne apart]
    exact alike.single other single
  · by_cases same : other = id
    · subst same
      rw [lookup_cons_self, lookup_cons_self]
      exact .some result
    · rw [lookup_cons_of_ne same, lookup_cons_of_ne same]
      exact alike.kept other stays
  · have apart : other ≠ id := by
      rintro rfl
      rw [at_.single] at collection
      cases collection
    rw [lookup_cons_of_ne apart]
    exact alike.hollow other hollow at_

theorem addHollow {hollow : Hollow} (alike : KnownAlike g g' root known known')
    (at_ : g.EmptiedAt g' root id hollow) :
    KnownAlike g g' root known ((id, hollow.value) :: known') := by
  refine ⟨alike.single, fun other stays => ?_, fun other hollow' at_' => ?_⟩
  · have apart : other ≠ id := by
      rintro rfl
      have collection := at_.isCollection
      rw [stays.tag, at_.single] at collection
      cases collection
    rw [lookup_cons_of_ne apart]
    exact alike.kept other stays
  · by_cases same : other = id
    · subst same
      have filled := at_.tag
      rw [at_'.tag] at filled
      rw [lookup_cons_self]
      rintro w ⟨⟩
      cases hollow <;> cases hollow' <;> first | rfl | cases filled
    · rw [lookup_cons_of_ne same]
      exact alike.hollow other hollow' at_'

end KnownAlike

variable {scalar scalar' : Nat → Value}

theorem foundAt_of_hollow {hollow : Hollow} {depth : Nat} {around : List Nat}
    (at_ : g.EmptiedAt g' root id hollow) (value : scalar id = .null) (fresh : id ∉ around)
    (alike : KnownAlike g g' root known known') :
    g.FoundAt g' root id (g.valueIn scalar (depth + 1) around known id)
      (g'.valueIn scalar' (depth + 1) around known' id) := by
  have result : g.AlikeAt root id .null hollow.value :=
    ⟨fun r read => .inr ⟨hollow, at_.section_ r read, rfl⟩, fun _ => at_.scalarValue⟩
  have outside : around.contains id = false := by simpa using fresh
  have first : g.valueIn scalar (depth + 1) around known id = ⟨.null, [], known⟩ := by
    simp only [valueIn, outside, alike.single id at_.single, at_.single, value, Bool.false_eq_true,
      ↓reduceIte]
  rw [first, valueIn, outside]
  simp only [Bool.false_eq_true, ↓reduceIte, at_.isCollection, collect_of_hollow at_, List.isEmpty_nil]
  split
  · next w found =>
    rw [alike.hollow id hollow at_ w found]
    exact ⟨result, rfl, alike⟩
  · exact ⟨result, rfl, alike.addHollow at_⟩

theorem foundAt_again (collection : (g.node id).tag.isCollection = true)
    (alike : KnownAlike g g' root known known') :
    g.FoundAt g' root id ⟨.again id, [id], known⟩ ⟨.again id, [id], known'⟩ := by
  refine ⟨⟨fun r read => ⟨rfl, read⟩, fun single => ?_⟩, rfl, alike⟩
  rw [collection] at single
  cases single

theorem foundAt_of_single (emptied : g.Emptied g' root) (read : g.ReadAs root r id)
    (kept : g.KeptAt g' id) (single : (g.node id).tag.isCollection = false)
    (value : g.scalarValue id = .ok (scalar id)) (value' : g'.scalarValue id = .ok (scalar' id))
    (alike : KnownAlike g g' root known known') :
    g.FoundAt g' root id ⟨scalar id, [], known⟩ ⟨scalar' id, [], known'⟩ := by
  rw [emptied.scalarValue read kept single, value] at value'
  obtain ⟨text, readText⟩ := read_of_scalarValue value
  rw [← Except.ok.inj value']
  exact ⟨⟨fun _ _ => emptied_of_single (isSingle_of_read readText), fun _ => value⟩, rfl, alike⟩

/-- What has been collected for a node is kept for further uses, unless it refers to what is around. -/
theorem foundAt_of_collected {f f' : Found Value} (kept : g.KeptAt g' id)
    (collection : (g.node id).tag.isCollection = true) (alike : CollectedAlike g g' root id f f') :
    g.FoundAt g' root id
      (if f.refers.isEmpty then ⟨f.result, [], (id, f.result) :: f.known⟩
        else ⟨.knot id f.result, f.refers.filter (· != id), f.known⟩)
      (if f'.refers.isEmpty then ⟨f'.result, [], (id, f'.result) :: f'.known⟩
        else ⟨.knot id f'.result, f'.refers.filter (· != id), f'.known⟩) := by
  have unread (v : Value) : (g.node id).tag.isCollection = false → g.scalarValue id = .ok v :=
    fun single => by cases collection.symm.trans single
  rw [alike.refers]
  split
  · have result := AlikeAt.mk alike.results (unread _)
    exact ⟨result, rfl, alike.known.add kept collection result⟩
  · exact ⟨⟨fun r read => ⟨_, rfl, alike.other, read, alike.results⟩, unread _⟩, rfl, alike.known⟩

/-- Every node is found alike. The collections around a node are all different, so that there are never
more steps to take than nodes. -/
theorem foundAt_valueIn (emptied : g.Emptied g' root)
    (readable : ∀ id, g.Reached root id → g.Readable id)
    (scalars : ∀ id, g.Reached root id → (g.node id).tag.isCollection = false →
      g.scalarValue id = .ok (scalar id))
    (scalars' : ∀ id, g'.Reached root id → (g'.node id).tag.isCollection = false →
      g'.scalarValue id = .ok (scalar' id))
    {depth : Nat} {around : List Nat} {known known' : Known} (reached : g.Reached root id)
    (reached' : g'.Reached root id) (nodup : around.Nodup)
    (collections : ∀ x ∈ around, (g.node x).tag.isCollection = true)
    (enough : g.nodes.size < depth + around.length) (alike : KnownAlike g g' root known known') :
    g.FoundAt g' root id (g.valueIn scalar depth around known id)
      (g'.valueIn scalar' depth around known' id) := by
  -- Each step down puts one more collection around what is read.
  induction depth generalizing around known known' id with
  | zero =>
    have few := length_le_of_collections nodup collections
    omega
  | succ depth ih =>
    obtain ⟨r, read⟩ := emptied.readAs_of_reached reached'
    rcases emptied.node id with kept | ⟨hollow, at_⟩
    · rw [valueIn, valueIn]
      split
      · next again => exact foundAt_again (collections id (by simpa using again)) alike
      · next fresh =>
        have absent : id ∉ around := by simpa using fresh
        have looked := alike.kept id kept
        generalize known.lookup id = a, known'.lookup id = b at looked
        cases looked with
        | some result => exact ⟨result, rfl, alike⟩
        | none =>
          dsimp only
          rw [kept.tag]
          split
          · next collection =>
            have finds : FindsAlike g g' root (g.valueIn scalar depth (id :: around))
                (g'.valueIn scalar' depth (id :: around)) (g.parts id) := by
              intro part member known known' alike
              refine ih (.part reached member)
                (.part reached' (by rwa [emptied.parts read kept])) (List.nodup_cons.mpr ⟨absent, nodup⟩)
                (List.forall_mem_cons.mpr ⟨collection, collections⟩) ?_ alike
              simp only [List.length_cons]
              omega
            exact foundAt_of_collected kept collection
              (alike_collect emptied read kept (readable id reached) collection finds alike)
          · next single =>
            have plain : (g.node id).tag.isCollection = false := by simpa using single
            exact foundAt_of_single emptied read kept plain (scalars id reached plain)
              (scalars' id reached' (by rw [kept.tag]; exact plain)) alike
    · have value := scalars id reached at_.single
      rw [at_.scalarValue] at value
      -- Only collections lie around a node, and a null section is none.
      refine foundAt_of_hollow at_ (Except.ok.inj value).symm (fun member => ?_) alike
      have collection := collections id member
      rw [at_.single] at collection
      cases collection

theorem knownAlike_nil : KnownAlike g g' root [] [] :=
  ⟨fun _ _ => rfl, fun _ _ => .none, fun _ _ _ _ found => by cases found⟩

theorem emptied_value {v v' : Visit} {P P' : Nat → Prop} (emptied : g.Emptied g' root)
    (visited : g.Visited root P v) (visited' : g'.Visited root P' v') :
    Value.Emptied (g.roles root) .spec (v.value root) (v'.value root) := by
  rw [Visit.value, Visit.value, visited.graph, visited'.graph, emptied.size]
  have found : g.FoundAt g' root root (g.valueIn v.scalar (g.nodes.size + 2) [] [] root)
      (g'.valueIn v'.scalar (g.nodes.size + 2) [] [] root) :=
    foundAt_valueIn emptied visited.readable visited.scalars visited'.scalars .root .root
      List.nodup_nil (by simp) (by simp) knownAlike_nil
  exact found.result.emptied .spec .root

end Graph

/-! ## Texts -/

/-- Texts of which the second has the document of the first, with empty collections in place of some null
sections. Both are one node each, so that all nodes have the same numbers. -/
def Empties (source source' : List Char) : Prop :=
  ∃ g g', Graph.ofText source = .ok g ∧ Graph.ofText source' = .ok g' ∧ g'.root = g.root ∧
    ∀ root, g.root = some root → g.Emptied g' root

theorem load_of_empties {source source' : List Char} (empties : Empties source source') :
    (∃ roles data data', load source = .ok data ∧ load source' = .ok data' ∧
        Value.Emptied roles .spec data data') ∨
      ∃ fault fault', load source = .error fault ∧ load source' = .error fault' ∧
        fault.Alike fault' := by
  obtain ⟨g, g', composed, composed', same, emptied⟩ := empties
  cases rooted : g.root with
  | none =>
    exact .inl ⟨fun _ _ => False, .null, .null, loadBy_of_empty composed rooted,
      loadBy_of_empty composed' (same.trans rooted), .inl rfl⟩
  | some root =>
    have emptied := emptied root rooted
    have reads {g : Graph} : ∀ id, g.Reached root id → g.IsDict id →
        Visit.Rule.Reads Visit.distinctly g (Visit.Told g) id :=
      fun _ _ dict => Graph.reads_distinctly dict
    have ends := Graph.ends_visit emptied
    rw [load, load, loadBy_of_root composed rooted, loadBy_of_root composed' (same.trans rooted)]
    generalize visit : g.visit Visit.distinctly root = x,
      visit' : g'.visit Visit.distinctly root = x' at ends
    cases ends with
    | ok abreast =>
      exact .inl ⟨g.roles root, _, _, rfl, rfl, Graph.emptied_value emptied
        (Graph.visited_of_visit reads visit) (Graph.visited_of_visit reads visit')⟩
    | error alike => exact .inr ⟨_, _, rfl, rfl, alike⟩

end PluginCompiler.Yaml
