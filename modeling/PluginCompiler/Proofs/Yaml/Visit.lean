import PluginCompiler.Proofs.Section.Traverse
import PluginCompiler.Proofs.Yaml.Parts

/-! Single visits. A visit of nodes puts the new collections among them into the queue, reads the
others, and fails only at a fault that one of the nodes has by itself. -/

set_option autoImplicit false

namespace PluginCompiler.Yaml

namespace Visit

variable {v v' v'' : Visit} {id : Nat} {ids more : List Nat} {pairs before : List (Nat × Nat)}
  {fault : Fault} {seen : List (Nat × Value)}

/-- What has been read is what the nodes say. -/
def Sane (v : Visit) : Prop :=
  ∀ id ∈ v.met, (v.graph.node id).tag.isCollection = false →
    v.graph.scalarValue id = .ok (v.scalar id)

/-- What a visit of nodes does: they are met, and new collections among them are queued. -/
structure Entered (ids : List Nat) (v v' : Visit) : Prop where
  graph : v'.graph = v.graph
  sane : v'.Sane
  met : ∀ id, id ∈ v'.met ↔ id ∈ v.met ∨ id ∈ ids
  queue : ∃ fresh, v'.queue = v.queue ++ fresh ∧ fresh.Nodup ∧
    ∀ id, id ∈ fresh ↔ id ∈ ids ∧ id ∉ v.met ∧ (v.graph.node id).tag.isCollection = true

namespace Entered

theorem nil (sane : v.Sane) : Entered [] v v :=
  ⟨rfl, sane, by simp, [], by simp, by simp, by simp⟩

theorem trans (first : Entered ids v v') (second : Entered more v' v'') :
    Entered (ids ++ more) v v'' := by
  obtain ⟨fresh, queue, nodup, mem⟩ := first.queue
  obtain ⟨fresh', queue', nodup', mem'⟩ := second.queue
  refine ⟨second.graph.trans first.graph, second.sane, fun id => ?_, fresh ++ fresh', ?_, ?_,
    fun id => ?_⟩
  · rw [second.met, first.met, List.mem_append, or_assoc]
  · rw [queue', queue, List.append_assoc]
  · refine List.nodup_append.mpr ⟨nodup, nodup', fun a early b late same => ?_⟩
    subst same
    exact ((mem' a).mp late).2.1 ((first.met a).mpr (.inr ((mem a).mp early).1))
  · rw [List.mem_append, List.mem_append, mem, mem', first.met, first.graph]
    by_cases here : id ∈ ids <;> simp [here]

theorem congr (entered : Entered ids v v') (same : ∀ id, id ∈ ids ↔ id ∈ more) :
    Entered more v v' := by
  obtain ⟨graph, sane, met, fresh, queue, nodup, mem⟩ := entered
  exact ⟨graph, sane, fun id => by rw [met, same], fresh, queue, nodup,
    fun id => by rw [mem, same]⟩

theorem keeps (entered : Entered ids v v') (member : id ∈ v.met) : id ∈ v'.met :=
  (entered.met id).mpr (.inl member)

theorem mem_met (entered : Entered ids v v') (member : id ∈ ids) : id ∈ v'.met :=
  (entered.met id).mpr (.inr member)

theorem mem_queue (entered : Entered ids v v') : id ∈ v'.queue ↔
    id ∈ v.queue ∨ id ∈ ids ∧ id ∉ v.met ∧ (v.graph.node id).tag.isCollection = true := by
  obtain ⟨fresh, queue, _, mem⟩ := entered.queue
  rw [queue, List.mem_append, mem]

theorem nodup_queue {earlier : List Nat} (entered : Entered ids v v')
    (nodup : (earlier ++ v.queue).Nodup) (met : ∀ id ∈ earlier ++ v.queue, id ∈ v.met) :
    (earlier ++ v'.queue).Nodup := by
  obtain ⟨fresh, queue, nodup', mem⟩ := entered.queue
  rw [queue, ← List.append_assoc, List.nodup_append]
  refine ⟨nodup, nodup', fun old early new late same => ?_⟩
  subst same
  exact ((mem old).mp late).2.1 (met old early)

theorem read (entered : Entered ids v v') (member : id ∈ ids)
    (single : (v.graph.node id).tag.isCollection = false) :
    v.graph.scalarValue id = .ok (v'.scalar id) := by
  have here := entered.sane id ((entered.met id).mpr (.inr member))
  rw [entered.graph] at here
  exact here single

end Entered

def queued (v : Visit) (id : Nat) : Visit := { v with met := id :: v.met, queue := v.queue ++ [id] }

/-- A node that is no collection has been met, and its value is noted. -/
def noted (v : Visit) (id : Nat) (value : Value) : Visit :=
  { v with met := id :: v.met, scalars := (id, value) :: v.scalars }

theorem scalar_noted (v : Visit) (value : Value) (other : Nat) :
    (v.noted id value).scalar other = if other = id then value else v.scalar other := by
  by_cases same : other = id
  · simp [noted, scalar, same]
  · simp [noted, scalar, same, List.lookup_cons, beq_eq_false_iff_ne.mpr same]

theorem enter_of_met (met : id ∈ v.met) : v.enter id = .ok v := by
  simp [enter, met]

theorem enter_of_collection (absent : id ∉ v.met)
    (collection : (v.graph.node id).tag.isCollection = true) : v.enter id = .ok (v.queued id) := by
  simp [enter, queued, absent, collection]

theorem enter_of_scalar {value : Value} (absent : id ∉ v.met)
    (single : (v.graph.node id).tag.isCollection = false) (read : v.graph.scalarValue id = .ok value) :
    v.enter id = .ok (v.noted id value) := by
  simp [enter, noted, absent, single, read]

theorem enter_of_fault {fault : ValueFault} (absent : id ∉ v.met)
    (single : (v.graph.node id).tag.isCollection = false)
    (read : v.graph.scalarValue id = .error fault) : v.enter id = .error (.ofValue fault) := by
  simp [enter, absent, single, read]

inductive Enters (v : Visit) (id : Nat) : Except Fault Visit → Prop where
  | known (met : id ∈ v.met) : Enters v id (.ok v)
  | queued (absent : id ∉ v.met) (collection : (v.graph.node id).tag.isCollection = true) :
      Enters v id (.ok (v.queued id))
  | noted {value : Value} (absent : id ∉ v.met)
      (single : (v.graph.node id).tag.isCollection = false)
      (read : v.graph.scalarValue id = .ok value) : Enters v id (.ok (v.noted id value))
  | fault {fault : ValueFault} (single : (v.graph.node id).tag.isCollection = false)
      (read : v.graph.scalarValue id = .error fault) : Enters v id (.error (.ofValue fault))

theorem enters_enter (v : Visit) (id : Nat) : Enters v id (v.enter id) := by
  by_cases met : id ∈ v.met
  · rw [enter_of_met met]
    exact .known met
  · cases collection : (v.graph.node id).tag.isCollection with
    | true =>
      rw [enter_of_collection met collection]
      exact .queued met collection
    | false =>
      cases read : v.graph.scalarValue id with
      | ok value =>
        rw [enter_of_scalar met collection read]
        exact .noted met collection read
      | error fault =>
        rw [enter_of_fault met collection read]
        exact .fault collection read

theorem Sane.queued (sane : v.Sane) (collection : (v.graph.node id).tag.isCollection = true) :
    (v.queued id).Sane := by
  intro other met single
  rcases List.mem_cons.mp met with rfl | met
  · cases collection.symm.trans single
  · exact sane other met single

theorem Sane.noted {value : Value} (sane : v.Sane) (absent : id ∉ v.met)
    (read : v.graph.scalarValue id = .ok value) : (v.noted id value).Sane := by
  intro other met plain
  rw [scalar_noted]
  rcases List.mem_cons.mp met with rfl | met
  · rw [if_pos rfl]
    exact read
  · have apart : other ≠ id := fun same => absent (same ▸ met)
    rw [if_neg apart]
    exact sane other met plain

theorem entered_of_enter (sane : v.Sane) (ended : v.enter id = .ok v') : Entered [id] v v' := by
  have enters := enters_enter v id
  rw [ended] at enters
  cases enters with
  | known met =>
    refine ⟨rfl, sane, fun other => ?_, [], by simp, by simp, fun other => ?_⟩
    · rw [List.mem_singleton]
      exact ⟨.inl, fun h => h.elim (·) (· ▸ met)⟩
    · simp only [List.not_mem_nil, List.mem_singleton, false_iff]
      rintro ⟨rfl, absent, _⟩
      exact absent met
  | queued absent collection =>
    refine ⟨rfl, sane.queued collection, fun other => ?_, [id], rfl, by simp, fun other => ?_⟩
    · simp [queued, or_comm]
    · rw [List.mem_singleton]
      exact ⟨fun same => ⟨same, same ▸ absent, same ▸ collection⟩, (·.1)⟩
  | noted absent single read =>
    refine ⟨rfl, sane.noted absent read, fun other => ?_, [], by simp [noted], by simp,
      fun other => ?_⟩
    · simp [noted, or_comm]
    · simp only [List.not_mem_nil, List.mem_singleton, false_iff]
      rintro ⟨rfl, _, collection⟩
      cases single.symm.trans collection

theorem faultAt_of_enter (ended : v.enter id = .error fault) : v.graph.FaultAt id fault := by
  have enters := enters_enter v id
  rw [ended] at enters
  cases enters with
  | fault single read => exact .scalar single read

theorem entered_of_foldlM (sane : v.Sane) (ended : ids.foldlM enter v = .ok v') :
    Entered ids v v' := by
  induction ids generalizing v with
  | nil =>
    cases ended
    exact .nil sane
  | cons id rest ih =>
    obtain ⟨middle, first, ended⟩ := bind_eq_ok ended
    have entered := entered_of_enter sane first
    exact entered.trans (ih entered.sane ended)

theorem faultAt_of_foldlM (sane : v.Sane) (ended : ids.foldlM enter v = .error fault) :
    ∃ id ∈ ids, v.graph.FaultAt id fault := by
  induction ids generalizing v with
  | nil => cases ended
  | cons id rest ih =>
    rcases bind_eq_error ended with failed | ⟨middle, first, ended⟩
    · exact ⟨id, List.mem_cons_self, faultAt_of_enter failed⟩
    · have entered := entered_of_enter sane first
      obtain ⟨other, member, at_⟩ := ih entered.sane ended
      rw [entered.graph] at at_
      exact ⟨other, List.mem_cons_of_mem id member, at_⟩

theorem entered_of_enterPairs (sane : v.Sane) (ended : v.enterPairs pairs = .ok v') :
    Entered (pairs.flatMap fun p => [p.1, p.2]) v v' ∧
      ∀ p ∈ pairs, (v.graph.node p.1).tag.isCollection = false := by
  induction pairs generalizing v with
  | nil =>
    cases ended
    exact ⟨.nil sane, by simp⟩
  | cons p rest ih =>
    obtain ⟨k, value⟩ := p
    obtain ⟨v₁, key, ended⟩ := bind_eq_ok ended
    have entered := entered_of_enter sane key
    split at ended
    · cases ended
    · next single =>
      obtain ⟨v₂, item, ended⟩ := bind_eq_ok ended
      have entered' := entered_of_enter entered.sane item
      obtain ⟨further, keys⟩ := ih entered'.sane ended
      rw [entered.graph] at single
      rw [entered'.graph, entered.graph] at keys
      refine ⟨(entered.trans entered').trans further, fun q member => ?_⟩
      rcases List.mem_cons.mp member with rfl | member
      · simpa using single
      · exact keys q member

theorem faultAt_of_enterPairs (sane : v.Sane) (ended : v.enterPairs pairs = .error fault) :
    (∃ part ∈ pairs.flatMap fun p => [p.1, p.2], v.graph.FaultAt part fault) ∨
      fault = .malformed ∧ ∃ p ∈ pairs, (v.graph.node p.1).tag.isCollection = true := by
  induction pairs generalizing v with
  | nil => cases ended
  | cons p rest ih =>
    obtain ⟨k, value⟩ := p
    rcases bind_eq_error ended with failed | ⟨v₁, key, ended⟩
    · exact .inl ⟨k, by simp, faultAt_of_enter failed⟩
    · have entered := entered_of_enter sane key
      rw [entered.graph] at ended
      split at ended
      · next collection =>
        cases ended
        exact .inr ⟨rfl, (k, value), List.mem_cons_self, collection⟩
      · rcases bind_eq_error ended with failed | ⟨v₂, item, ended⟩
        · have at_ := faultAt_of_enter failed
          rw [entered.graph] at at_
          exact .inl ⟨value, by simp, at_⟩
        · have entered' := entered_of_enter entered.sane item
          have further := ih entered'.sane ended
          rw [entered'.graph, entered.graph] at further
          rcases further with ⟨part, member, at_⟩ | ⟨rfl, q, member, collection⟩
          · exact .inl ⟨part, by simpa using .inr (.inr (by simpa using member)), at_⟩
          · exact .inr ⟨rfl, q, List.mem_cons_of_mem _ member, collection⟩

theorem entered_of_enterSingles {items : List Nat} (sane : v.Sane)
    (ended : v.enterSingles items = .ok v') :
    Entered ((v.graph.pairsOf items).flatMap fun p => [p.1, p.2]) v v' ∧
      ∀ item ∈ items, ∃ p, (v.graph.node item).content = .mapping [p] := by
  induction items generalizing v with
  | nil =>
    cases ended
    exact ⟨.nil sane, by simp⟩
  | cons item rest ih =>
    rw [enterSingles] at ended
    split at ended
    · next k value content =>
      obtain ⟨v₁, key, ended⟩ := bind_eq_ok ended
      obtain ⟨v₂, lent, ended⟩ := bind_eq_ok ended
      have entered := entered_of_enter sane key
      have entered' := entered_of_enter entered.sane lent
      obtain ⟨further, singles⟩ := ih entered'.sane ended
      rw [entered'.graph, entered.graph] at further singles
      refine ⟨?_, fun other member => ?_⟩
      · have whole := (entered.trans entered').trans further
        simpa [Graph.pairsOf, Graph.pairs_of_mapping content] using whole
      · rcases List.mem_cons.mp member with rfl | member
        · exact ⟨_, content⟩
        · exact singles other member
    · cases ended

theorem faultAt_of_enterSingles {items : List Nat} (sane : v.Sane)
    (ended : v.enterSingles items = .error fault) :
    (∃ part ∈ (v.graph.pairsOf items).flatMap fun p => [p.1, p.2], v.graph.FaultAt part fault) ∨
      fault = .malformed ∧ ∃ item ∈ items, ∀ p, (v.graph.node item).content ≠ .mapping [p] := by
  induction items generalizing v with
  | nil => cases ended
  | cons item rest ih =>
    rw [enterSingles] at ended
    split at ended
    · next k value content =>
      have here : v.graph.pairs item = [(k, value)] := Graph.pairs_of_mapping content
      rcases bind_eq_error ended with failed | ⟨v₁, key, ended⟩
      · exact .inl ⟨k, by simp [Graph.pairsOf, here], faultAt_of_enter failed⟩
      · have entered := entered_of_enter sane key
        rcases bind_eq_error ended with failed | ⟨v₂, lent, ended⟩
        · have at_ := faultAt_of_enter failed
          rw [entered.graph] at at_
          exact .inl ⟨value, by simp [Graph.pairsOf, here], at_⟩
        · have entered' := entered_of_enter entered.sane lent
          have further := ih entered'.sane ended
          rw [entered'.graph, entered.graph] at further
          rcases further with ⟨part, member, at_⟩ | ⟨rfl, other, member, unfit⟩
          · refine .inl ⟨part, ?_, at_⟩
            rw [Graph.pairsOf, List.flatMap_cons, List.flatMap_append, List.mem_append]
            exact .inr member
          · exact .inr ⟨rfl, other, List.mem_cons_of_mem item member, unfit⟩
    · next unfit =>
      cases ended
      exact .inr ⟨rfl, item, List.mem_cons_self, fun p => unfit p.1 p.2⟩

/-! ## Keys -/

/-- What is remembered of keys tells which further keys are equal to one of them. -/
def Remembers (v : Visit) (seen : List (Nat × Value)) (before : List (Nat × Nat)) : Prop :=
  ∀ k value, v.graph.scalarValue k = .ok value →
    (seen.any fun s => v.graph.sameKey s (k, value)) = before.any fun p => v.graph.clashes p.1 k

theorem remembers_nil (v : Visit) : v.Remembers [] [] := fun _ _ _ => rfl

theorem Remembers.congr (remembers : v.Remembers seen before) (same : v'.graph = v.graph) :
    v'.Remembers seen before := by
  rwa [Remembers, same]

theorem Remembers.skip {p : Nat × Nat} (remembers : v.Remembers seen before)
    (collection : (v.graph.node p.1).tag.isCollection = true) :
    v.Remembers seen (before ++ [p]) := by
  intro k value read
  rw [remembers k value read]
  simp [(Graph.clashes_of_collection collection k).1]

theorem Remembers.add {p : Nat × Nat} {key : Value} (remembers : v.Remembers seen before)
    (read : v.graph.scalarValue p.1 = .ok key) :
    v.Remembers ((p.1, key) :: seen) (before ++ [p]) := by
  intro k value readK
  rw [List.any_cons, remembers k value readK, List.any_append, List.any_cons, List.any_nil,
    Graph.clashes_of_ok read readK, Bool.or_false, Bool.or_comm]

theorem enterKeys_cons {k value : Nat} {rest : List (Nat × Nat)} (remembers : v.Remembers seen before)
    (entered : Entered [k] v v') (first : v.enter k = .ok v') :
    (∃ seen', v.Remembers seen' (before ++ [(k, value)]) ∧
        (∀ p ∈ before, v.graph.clashes p.1 k = false) ∧ v.graph.Ordinary [(k, value)] ∧
        v.enterKeys seen ((k, value) :: rest) = v'.enterKeys seen' rest) ∨
      ∃ key, (∃ p ∈ before, v.graph.clashes p.1 k = true) ∧ v.graph.scalarValue k = .ok key ∧
        v.enterKeys seen ((k, value) :: rest) =
          .error (.duplicateKey key (v.graph.node k).start) := by
  simp only [enterKeys, first, bind, Except.bind, entered.graph]
  split
  · next collection =>
    refine .inl ⟨seen, remembers.skip collection,
      fun p _ => (Graph.clashes_of_collection collection p.1).2, ?_, rfl⟩
    rw [Graph.Ordinary, List.forall_mem_singleton]
    cases tag : (v.graph.node k).tag <;> simp_all [Tag.isCollection]
  · next single =>
    have read : v.graph.scalarValue k = .ok (v'.scalar k) :=
      entered.read List.mem_cons_self (by simpa using single)
    rw [remembers k _ read]
    split
    · next clash => exact .inr ⟨_, by simpa using clash, read, rfl⟩
    · next free =>
      refine .inl ⟨_, remembers.add (p := (k, value)) read, by simpa using free, ?_, rfl⟩
      rw [Graph.Ordinary, List.forall_mem_singleton]
      exact (Graph.tag_of_scalarValue read).2

theorem entered_of_enterKeys (sane : v.Sane) (remembers : v.Remembers seen before)
    (apart : v.graph.Apart before) (ended : v.enterKeys seen pairs = .ok v') :
    Entered (pairs.map (·.1)) v v' ∧ v.graph.Apart (before ++ pairs) ∧ v.graph.Ordinary pairs := by
  -- The keys that are done are `before`, and `seen` stands for them.
  induction pairs generalizing v seen before with
  | nil =>
    cases ended
    exact ⟨.nil sane, by simpa using apart, by simp [Graph.Ordinary]⟩
  | cons p rest ih =>
    obtain ⟨k, value⟩ := p
    obtain ⟨middle, first, _⟩ := bind_eq_ok ended
    have entered := entered_of_enter sane first
    rcases enterKeys_cons remembers entered first with
      ⟨seen', remembers', free, plain, step⟩ | ⟨key, _, _, step⟩
    · rw [step] at ended
      have apart' : v.graph.Apart (before ++ [(k, value)]) := Graph.apart_concat.mpr ⟨apart, free⟩
      rw [← entered.graph] at apart'
      obtain ⟨further, apart'', ordinary⟩ :=
        ih entered.sane (remembers'.congr entered.graph) apart' ended
      rw [entered.graph] at apart'' ordinary
      refine ⟨entered.trans further, by simpa using apart'', fun q member => ?_⟩
      rcases List.mem_cons.mp member with rfl | member
      · exact plain _ List.mem_cons_self
      · exact ordinary q member
    · rw [step] at ended
      cases ended

theorem faultAt_of_enterKeys (sane : v.Sane) (remembers : v.Remembers seen before)
    (apart : v.graph.Apart before) (ended : v.enterKeys seen pairs = .error fault) :
    (∃ p ∈ pairs, v.graph.FaultAt p.1 fault) ∨
      ∃ done k value rest key, pairs = done ++ (k, value) :: rest ∧ v.graph.Apart (before ++ done) ∧
        (∃ p ∈ before ++ done, v.graph.clashes p.1 k = true) ∧ v.graph.scalarValue k = .ok key ∧
        fault = .duplicateKey key (v.graph.node k).start := by
  -- A key that has been read joins those that the rest is compared with.
  induction pairs generalizing v seen before with
  | nil => cases ended
  | cons p rest ih =>
    obtain ⟨k, value⟩ := p
    rcases bind_eq_error ended with failed | ⟨middle, first, _⟩
    · exact .inl ⟨(k, value), List.mem_cons_self, faultAt_of_enter failed⟩
    · have entered := entered_of_enter sane first
      rcases enterKeys_cons remembers entered first with
        ⟨seen', remembers', free, _, step⟩ | ⟨key, clash, read, step⟩
      · rw [step] at ended
        have apart' : v.graph.Apart (before ++ [(k, value)]) := Graph.apart_concat.mpr ⟨apart, free⟩
        rw [← entered.graph] at apart'
        have further := ih entered.sane (remembers'.congr entered.graph) apart' ended
        rw [entered.graph] at further
        rcases further with ⟨q, member, at_⟩ | ⟨done, k', value', rest', key, split, rest⟩
        · exact .inl ⟨q, List.mem_cons_of_mem _ member, at_⟩
        · refine .inr ⟨(k, value) :: done, k', value', rest', key, by rw [split]; rfl, ?_⟩
          simpa using rest
      · rw [step] at ended
        cases ended
        exact .inr ⟨[], k, value, rest, key, rfl, by simpa using apart, by simpa using clash, read, rfl⟩

end Visit

end PluginCompiler.Yaml
