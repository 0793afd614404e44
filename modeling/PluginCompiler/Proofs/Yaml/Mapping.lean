import PluginCompiler.Proofs.Yaml.Visit

/-! The two rules for mappings at a single node. With ordinary keys that differ, merging and settling
leave the document as it is, so that both rules meet the same nodes. -/

set_option autoImplicit false

namespace PluginCompiler.Yaml

namespace Graph

variable {g : Graph} {id : Nat} {pairs : List (Nat × Nat)}

theorem setPairs_self (content : (g.node id).content = .mapping pairs) : g.setPairs id pairs = g := by
  have same : g.nodes.modify id (fun n => { n with content := .mapping pairs }) = g.nodes := by
    apply Array.ext
    · simp
    · intro i low high
      rw [Array.getElem_modify]
      split
      · next here =>
        subst here
        have found : g.node id = g.nodes[id] := by simp [Graph.node, high]
        rw [← found, ← content]
      · rfl
  rw [setPairs, same]

theorem asText_of_ordinary {key : Nat} (plain : (g.node key).tag ≠ .value) : g.asText key = g :=
  if_neg plain

theorem foldl_asText_of_ordinary (ordinary : g.Ordinary pairs) :
    pairs.foldl (fun g p => g.asText p.1) g = g := by
  induction pairs with
  | nil => rfl
  | cons p rest ih =>
    rw [List.foldl_cons, asText_of_ordinary (ordinary p List.mem_cons_self).2]
    exact ih fun q member => ordinary q (List.mem_cons_of_mem p member)

theorem merged_of_ordinary (ordinary : g.Ordinary (g.pairs id)) : g.merged id = some g := by
  have none : (g.pairs id).find? g.isMerge = none := by
    rw [List.find?_eq_none]
    intro p member merge
    exact (ordinary p member).1 (by simpa [isMerge] using merge)
  rw [merged, mergeFrom, none, foldl_asText_of_ordinary ordinary]
  rfl

end Graph

namespace Visit

variable {v v' : Visit} {g : Graph} {id : Nat} {pairs done : List (Nat × Nat)} {fault : Fault}

def ReadKeys (v : Visit) (pairs : List (Nat × Nat)) : Prop :=
  ∀ p ∈ pairs, v.graph.scalarValue p.1 = .ok (v.scalar p.1)

theorem putPair_of_apart {p : Nat × Nat} (read : v.ReadKeys (done ++ [p]))
    (free : ∀ q ∈ done, v.graph.clashes q.1 p.1 = false) : v.putPair p done = done ++ [p] := by
  induction done with
  | nil => rfl
  | cons q rest ih =>
    have here := free q List.mem_cons_self
    rw [Graph.clashes_of_ok (read q (by simp)) (read p (by simp))] at here
    have further := ih (fun r member => read r (List.mem_cons_of_mem q member))
      fun r member => free r (List.mem_cons_of_mem q member)
    simp [putPair, here, further]

theorem foldl_putPair_of_apart (read : v.ReadKeys (done ++ pairs))
    (apart : v.graph.Apart (done ++ pairs)) :
    pairs.foldl (fun done p => v.putPair p done) done = done ++ pairs := by
  induction pairs generalizing done with
  | nil => simp
  | cons p rest ih =>
    have split : done ++ p :: rest = (done ++ [p]) ++ rest := by simp
    rw [split] at read apart
    have front : v.graph.Apart (done ++ [p]) := (List.pairwise_append.mp apart).1
    have put := putPair_of_apart (fun q member => read q (List.mem_append_left rest member))
      (Graph.apart_concat.mp front).2
    rw [List.foldl_cons, put, ih read apart, split]

theorem settle_of_apart (content : (v.graph.node id).content = .mapping pairs)
    (read : v.ReadKeys pairs) (apart : v.graph.Apart pairs) : v.settle id = v := by
  have same : pairs.foldl (fun done p => v.putPair p done) [] = [] ++ pairs :=
    foldl_putPair_of_apart read apart
  rw [settle, Graph.pairs_of_mapping content, same, List.nil_append,
    Graph.setPairs_self content]

theorem plainly_of_ordinary (content : (v.graph.node id).content = .mapping pairs)
    (ordinary : v.graph.Ordinary pairs) :
    v.plainly id = (do
      let v ← v.enterPairs pairs
      return v.settle id) := by
  rw [← Graph.pairs_of_mapping content] at ordinary ⊢
  simp only [plainly, content, Graph.merged_of_ordinary ordinary]

theorem plainly_of_apart (sane : v.Sane) (content : (v.graph.node id).content = .mapping pairs)
    (ordinary : v.graph.Ordinary pairs) (apart : v.graph.Apart pairs) :
    v.plainly id = v.enterPairs pairs := by
  rw [plainly_of_ordinary content ordinary]
  cases paired : v.enterPairs pairs with
  | error fault => rfl
  | ok middle =>
    obtain ⟨entered, keys⟩ := entered_of_enterPairs sane paired
    have read : middle.ReadKeys pairs := fun p member => by
      rw [entered.graph]
      refine entered.read ?_ (keys p member)
      exact List.mem_flatMap.mpr ⟨p, member, by simp⟩
    rw [← entered.graph] at content apart
    exact congrArg Except.ok (settle_of_apart content read apart)

theorem entered_of_plainly (sane : v.Sane) (content : (v.graph.node id).content = .mapping pairs)
    (ordinary : v.graph.Ordinary pairs) (apart : v.graph.Apart pairs)
    (ended : v.plainly id = .ok v') :
    Entered (pairs.flatMap fun p => [p.1, p.2]) v v' ∧
      ∀ p ∈ pairs, (v.graph.node p.1).tag.isCollection = false := by
  rw [plainly_of_apart sane content ordinary apart] at ended
  exact entered_of_enterPairs sane ended

theorem faultAt_of_plainly (sane : v.Sane) (dict : v.graph.IsDict id)
    (content : (v.graph.node id).content = .mapping pairs) (ordinary : v.graph.Ordinary pairs)
    (ended : v.plainly id = .error fault) :
    ∃ x, (x = id ∨ x ∈ v.graph.parts id) ∧ v.graph.FaultAt x fault := by
  rw [plainly_of_ordinary content ordinary] at ended
  rcases bind_eq_error ended with failed | ⟨middle, _, impossible⟩
  · rcases faultAt_of_enterPairs sane failed with ⟨part, member, at_⟩ | ⟨rfl, p, member, collection⟩
    · rw [← Graph.parts_of_dict dict content] at member
      exact ⟨part, .inr member, at_⟩
    · exact ⟨id, .inl rfl,
        .misfit dict.isCollection
          (Graph.not_readable_of_collection dict content member collection)⟩
  · cases impossible

theorem distinctly_of_mapping (sane : v.Sane) (content : (v.graph.node id).content = .mapping pairs) :
    v.distinctly id = (do
      let v ← v.enterKeys [] pairs
      v.enterPairs pairs) := by
  simp only [distinctly, content]
  cases keyed : v.enterKeys [] pairs with
  | error fault => rfl
  | ok middle =>
    obtain ⟨entered, apart, ordinary⟩ :=
      entered_of_enterKeys sane (remembers_nil v) List.Pairwise.nil keyed
    rw [← entered.graph] at content apart ordinary
    exact plainly_of_apart entered.sane content ordinary apart

theorem entered_of_distinctly (sane : v.Sane) (ended : v.distinctly id = .ok v') :
    ∃ pairs, (v.graph.node id).content = .mapping pairs ∧
      Entered (pairs.flatMap fun p => [p.1, p.2]) v v' ∧
      (∀ p ∈ pairs, (v.graph.node p.1).tag.isCollection = false) ∧
      v.graph.Apart pairs ∧ v.graph.Ordinary pairs := by
  rw [distinctly] at ended
  split at ended
  · next pairs content =>
    obtain ⟨middle, keyed, ended⟩ := bind_eq_ok ended
    obtain ⟨entered, apart, ordinary⟩ :=
      entered_of_enterKeys sane (remembers_nil v) List.Pairwise.nil keyed
    rw [List.nil_append] at apart
    have same : middle.graph = v.graph := entered.graph
    obtain ⟨entered', keys⟩ := entered_of_plainly entered.sane (same ▸ content) (same ▸ ordinary)
      (same ▸ apart) ended
    rw [same] at keys
    refine ⟨pairs, content, (entered.trans entered').congr fun x => ?_, keys, apart, ordinary⟩
    simp only [List.mem_append, List.mem_map, List.mem_flatMap, List.mem_cons, List.not_mem_nil,
      or_false]
    -- Keys are among the parts that are entered after them.
    refine ⟨?_, .inr⟩
    rintro (⟨p, inside, rfl⟩ | part)
    · exact ⟨p, inside, .inl rfl⟩
    · exact part
  · cases ended
  · cases ended
  · cases ended

theorem faultAt_of_distinctly (sane : v.Sane) (dict : v.graph.IsDict id)
    (ended : v.distinctly id = .error fault) :
    ∃ x, (x = id ∨ x ∈ v.graph.parts id) ∧ v.graph.FaultAt x fault := by
  have misfit (other : ∀ pairs, (v.graph.node id).content ≠ .mapping pairs) :
      v.graph.FaultAt id .malformed :=
    .misfit dict.isCollection (Graph.not_readable_of_content dict other)
  rw [distinctly] at ended
  split at ended
  · next pairs content =>
    rcases bind_eq_error ended with failed | ⟨middle, keyed, ended⟩
    · rcases faultAt_of_enterKeys sane (remembers_nil v) List.Pairwise.nil failed
        with ⟨p, member, at_⟩ | ⟨done, k, value, rest, key, split, apart, clash, read, rfl⟩
      · refine ⟨p.1, .inr ?_, at_⟩
        rw [Graph.parts_of_dict dict content]
        exact List.mem_flatMap.mpr ⟨p, member, by simp⟩
      · refine ⟨id, .inl rfl, .repeated dict ⟨done, k, value, rest, ?_, apart, clash, read, rfl⟩⟩
        rw [Graph.pairs_of_mapping content, split]
    · obtain ⟨entered, _, ordinary⟩ :=
        entered_of_enterKeys sane (remembers_nil v) List.Pairwise.nil keyed
      -- The keys have no fault, so it is the second round that fails, over the same graph.
      have same : middle.graph = v.graph := entered.graph
      have further := faultAt_of_plainly entered.sane (same ▸ dict) (same ▸ content)
        (same ▸ ordinary) ended
      rwa [same] at further
  · next content =>
    cases ended
    exact ⟨id, .inl rfl, .item dict content⟩
  · next text content =>
    cases ended
    refine ⟨id, .inl rfl, ?_⟩
    split
    · exact misfit fun pairs => by simp [content]
    · next filled => exact .text dict content filled
  · next content =>
    cases ended
    exact ⟨id, .inl rfl, misfit fun pairs => by simp [content]⟩

end Visit

end PluginCompiler.Yaml
