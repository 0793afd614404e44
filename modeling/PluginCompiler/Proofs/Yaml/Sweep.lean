import PluginCompiler.Proofs.Yaml.Mapping

/-! The visit of a whole document. It ends well only if every node that the root reaches can be read,
and then all of them have been; it fails only at a fault that one of them has by itself. -/

set_option autoImplicit false

namespace PluginCompiler.Yaml

open Visit

/-- What a rule does with a mapping: `P` holds of it if it is read. -/
structure Visit.Rule.Reads (rule : Rule) (g : Graph) (P : Nat → Prop) (id : Nat) : Prop where
  ok : ∀ v v', v.graph = g → v.Sane → rule v id = .ok v' →
    Entered (g.parts id) v v' ∧ g.Readable id ∧ P id
  error : ∀ v fault, v.graph = g → v.Sane → rule v id = .error fault →
    ∃ x, (x = id ∨ x ∈ g.parts id) ∧ g.FaultAt x fault

namespace Graph

variable {g : Graph} {root id : Nat} {fault : Fault}

theorem reads_distinctly (dict : g.IsDict id) :
    Rule.Reads distinctly g (fun id => g.Apart (g.pairs id) ∧ g.Ordinary (g.pairs id)) id where
  ok := by
    rintro v v' rfl sane ended
    obtain ⟨pairs, content, entered, keys, apart, ordinary⟩ := entered_of_distinctly sane ended
    rw [parts_of_dict dict content, pairs_of_mapping content]
    exact ⟨entered, .dict dict pairs content keys, apart, ordinary⟩
  error := by
    rintro v fault rfl sane ended
    exact faultAt_of_distinctly sane dict ended

theorem reads_plainly (dict : g.IsDict id) (ordinary : g.Ordinary (g.pairs id))
    (apart : g.Apart (g.pairs id)) : Rule.Reads plainly g (fun _ => True) id where
  ok := by
    rintro v v' rfl sane ended
    cases content : (v.graph.node id).content with
    | mapping pairs =>
      rw [pairs_of_mapping content] at ordinary apart
      obtain ⟨entered, keys⟩ := entered_of_plainly sane content ordinary apart ended
      rw [parts_of_dict dict content]
      exact ⟨entered, .dict dict pairs content keys, trivial⟩
    | scalar text =>
      simp only [plainly, content] at ended
      cases ended
    | sequence items =>
      simp only [plainly, content] at ended
      cases ended
  error := by
    rintro v fault rfl sane ended
    have misfit (other : ∀ pairs, (v.graph.node id).content ≠ .mapping pairs) :
        v.graph.FaultAt id .malformed :=
      .misfit dict.isCollection (not_readable_of_content dict other)
    cases content : (v.graph.node id).content with
    | mapping pairs =>
      rw [pairs_of_mapping content] at ordinary
      exact faultAt_of_plainly sane dict content ordinary ended
    | scalar text =>
      simp only [plainly, content] at ended
      cases ended
      exact ⟨id, .inl rfl, misfit fun pairs => by simp [content]⟩
    | sequence items =>
      simp only [plainly, content] at ended
      cases ended
      exact ⟨id, .inl rfl, misfit fun pairs => by simp [content]⟩

end Graph

namespace Visit

variable {g : Graph} {rule : Rule} {P : Nat → Prop} {root id : Nat} {v v' : Visit} {fault : Fault}

theorem not_readable_of_unfit {tag : Tag} (same : (g.node id).tag = tag)
    (listed : tag = .seq ∨ tag = .omap ∨ tag = .pairs)
    (unfit : ∀ items, (g.node id).content ≠ .sequence items) : ¬ g.Readable id := by
  intro readable
  cases readable with
  | scalar single => rcases listed with rfl | rfl | rfl <;> rw [same] at single <;> cases single
  | items _ items content => exact unfit items content
  | singles _ items content => exact unfit items content
  | dict dict =>
    rcases dict with other | other <;> rw [other] at same <;> subst same <;>
      rcases listed with listed | listed | listed <;> cases listed

theorem not_readable_of_singles {items : List Nat} {item : Nat} {tag : Tag}
    (same : (g.node id).tag = tag) (listed : tag = .omap ∨ tag = .pairs)
    (content : (g.node id).content = .sequence items) (member : item ∈ items)
    (unfit : ∀ p, (g.node item).content ≠ .mapping [p]) : ¬ g.Readable id := by
  intro readable
  cases readable with
  | scalar single => rcases listed with rfl | rfl <;> rw [same] at single <;> cases single
  | items other =>
    rw [other] at same
    subst same
    rcases listed with listed | listed <;> cases listed
  | singles _ items' content' single =>
    rw [content] at content'
    cases content'
    obtain ⟨p, here⟩ := single item member
    exact unfit p here
  | dict _ pairs content' => simp [content] at content'

theorem entered_of_singles {items : List Nat} (graph : v.graph = g) (sane : v.Sane)
    (tag : (g.node id).tag = .omap ∨ (g.node id).tag = .pairs)
    (content : (g.node id).content = .sequence items) (ended : v.enterSingles items = .ok v') :
    Entered (g.parts id) v v' ∧ g.Readable id := by
  obtain ⟨entered, singles⟩ := entered_of_enterSingles sane ended
  rw [graph] at entered singles
  rw [Graph.parts_of_singles tag content]
  exact ⟨entered, .singles tag items content singles⟩

theorem faultAt_of_singles {items : List Nat} (graph : v.graph = g) (sane : v.Sane)
    (tag : (g.node id).tag = .omap ∨ (g.node id).tag = .pairs)
    (content : (g.node id).content = .sequence items)
    (ended : v.enterSingles items = .error fault) :
    ∃ x, (x = id ∨ x ∈ g.parts id) ∧ g.FaultAt x fault := by
  have parts := Graph.parts_of_singles tag content
  have collection : (g.node id).tag.isCollection = true := by
    rcases tag with tag | tag <;> rw [tag] <;> rfl
  have found := faultAt_of_enterSingles sane ended
  rw [graph, ← parts] at found
  rcases found with ⟨part, member, at_⟩ | ⟨rfl, item, member, unfit⟩
  · exact ⟨part, .inr member, at_⟩
  · exact ⟨id, .inl rfl,
      .misfit collection (not_readable_of_singles rfl tag content member unfit)⟩

theorem entered_of_enterEntries (reads : g.IsDict id → rule.Reads g P id) (graph : v.graph = g)
    (sane : v.Sane) (ended : enterEntries rule v id = .ok v') :
    Entered (g.parts id) v v' ∧ g.Readable id ∧ (g.IsDict id → P id) := by
  have listed {tag : Tag} (same : (g.node id).tag = tag) (other : tag ≠ .map ∧ tag ≠ .set) :
      g.IsDict id → P id := by
    rintro (dict | dict)
    · exact absurd (same.symm.trans dict) other.1
    · exact absurd (same.symm.trans dict) other.2
  simp only [enterEntries, graph] at ended
  split at ended
  · next items tag content =>
    have entered := entered_of_foldlM sane ended
    rw [Graph.parts_of_items tag content]
    exact ⟨entered, .items tag items content, listed tag (by decide)⟩
  · next items tag content =>
    obtain ⟨entered, readable⟩ := entered_of_singles graph sane (.inl tag) content ended
    exact ⟨entered, readable, listed tag (by decide)⟩
  · next items tag content =>
    obtain ⟨entered, readable⟩ := entered_of_singles graph sane (.inr tag) content ended
    exact ⟨entered, readable, listed tag (by decide)⟩
  · next tag =>
    obtain ⟨entered, readable, holds⟩ := (reads (.inl tag)).ok v v' graph sane ended
    exact ⟨entered, readable, fun _ => holds⟩
  · next tag =>
    obtain ⟨entered, readable, holds⟩ := (reads (.inr tag)).ok v v' graph sane ended
    exact ⟨entered, readable, fun _ => holds⟩
  · cases ended

theorem faultAt_of_enterEntries (reads : g.IsDict id → rule.Reads g P id) (graph : v.graph = g)
    (sane : v.Sane) (collection : (g.node id).tag.isCollection = true)
    (ended : enterEntries rule v id = .error fault) :
    ∃ x, (x = id ∨ x ∈ g.parts id) ∧ g.FaultAt x fault := by
  simp only [enterEntries, graph] at ended
  split at ended
  · next items tag content =>
    obtain ⟨part, member, at_⟩ := faultAt_of_foldlM sane ended
    have parts := Graph.parts_of_items tag content
    rw [graph] at at_
    exact ⟨part, .inr (parts ▸ member), at_⟩
  · next items tag content => exact faultAt_of_singles graph sane (.inl tag) content ended
  · next items tag content => exact faultAt_of_singles graph sane (.inr tag) content ended
  · next tag => exact (reads (.inl tag)).error v fault graph sane ended
  · next tag => exact (reads (.inr tag)).error v fault graph sane ended
  · next noMap noSet noItems noSingles noPairs =>
    cases ended
    refine ⟨id, .inl rfl, .misfit collection ?_⟩
    cases tag : (g.node id).tag with
    | seq => exact not_readable_of_unfit tag (.inl rfl) fun items => noItems items tag
    | omap => exact not_readable_of_unfit tag (.inr (.inl rfl)) fun items => noSingles items tag
    | pairs => exact not_readable_of_unfit tag (.inr (.inr rfl)) fun items => noPairs items tag
    | map => exact (noMap tag).elim
    | set => exact (noSet tag).elim
    | _ => simp [tag, Tag.isCollection] at collection

/-- A visit under way: `done` are the collections whose entries have been visited. -/
structure Sweep (g : Graph) (root : Nat) (P : Nat → Prop) (done : List Nat) (v : Visit) : Prop where
  graph : v.graph = g
  sane : v.Sane
  rooted : root ∈ v.met
  reached : ∀ id ∈ v.met, g.Reached root id
  waiting : ∀ id ∈ v.queue, id ∈ v.met ∧ (g.node id).tag.isCollection = true
  known : ∀ id ∈ v.met, (g.node id).tag.isCollection = true → id ∈ done ∨ id ∈ v.queue
  visited : ∀ id ∈ done, id ∈ v.met ∧ (g.node id).tag.isCollection = true
  closed : ∀ id ∈ done, g.Readable id ∧ (g.IsDict id → P id) ∧ ∀ part ∈ g.parts id, part ∈ v.met
  nodup : (done ++ v.queue).Nodup

namespace Sweep

variable {done queue : List Nat}

theorem start (first : (Visit.start g).enter root = .ok v) : Sweep g root P [] v := by
  have entered := entered_of_enter (fun id member => absurd member List.not_mem_nil) first
  have only : ∀ id, id ∈ v.met → id = root := fun id member => by
    simpa [Visit.start] using (entered.met id).mp member
  have waits : ∀ id, id ∈ v.queue ↔ id = root ∧ (g.node id).tag.isCollection = true := fun id => by
    rw [entered.mem_queue]
    simp [Visit.start]
  have metRoot : root ∈ v.met := entered.mem_met List.mem_cons_self
  exact {
    graph := entered.graph
    sane := entered.sane
    rooted := metRoot
    reached := fun id member => only id member ▸ .root
    waiting := fun id member =>
      have ⟨same, collection⟩ := (waits id).mp member
      ⟨same ▸ metRoot, collection⟩
    known := fun id member collection => .inr ((waits id).mpr ⟨only id member, collection⟩)
    visited := fun id member => absurd member List.not_mem_nil
    closed := fun id member => absurd member List.not_mem_nil
    nodup := entered.nodup_queue List.nodup_nil fun id member => absurd member List.not_mem_nil }

theorem step (sweep : Sweep g root P done v) (head : v.queue = id :: queue)
    (entered : Entered (g.parts id) { v with queue := queue } v') (readable : g.Readable id)
    (holds : g.IsDict id → P id) : Sweep g root P (done ++ [id]) v' := by
  have waits : ∀ x, x ∈ v.queue ↔ x = id ∨ x ∈ queue := fun x => by rw [head, List.mem_cons]
  obtain ⟨metId, collection⟩ := sweep.waiting id ((waits id).mpr (.inl rfl))
  have graph : g = v.graph := sweep.graph.symm
  -- Nothing that is done or waits can be new.
  have earlier : ∀ x ∈ (done ++ [id]) ++ queue, x ∈ v.met := fun x member => by
    have known : x ∈ done ∨ x ∈ v.queue := by simpa [head, or_assoc] using member
    exact known.elim (fun closed => (sweep.visited x closed).1)
      fun waiting => (sweep.waiting x waiting).1
  exact {
    graph := entered.graph.trans sweep.graph
    sane := entered.sane
    rooted := entered.keeps sweep.rooted
    reached := fun x member => by
      rcases (entered.met x).mp member with old | part
      · exact sweep.reached x old
      · exact .part (sweep.reached id metId) part
    waiting := fun x member => by
      rcases entered.mem_queue.mp member with old | ⟨part, _, isCollection⟩
      · obtain ⟨there, isCollection⟩ := sweep.waiting x ((waits x).mpr (.inr old))
        exact ⟨entered.keeps there, isCollection⟩
      · exact ⟨entered.mem_met part, graph ▸ isCollection⟩
    known := fun x member isCollection => by
      rw [List.mem_append, List.mem_singleton, entered.mem_queue]
      by_cases old : x ∈ v.met
      · rcases sweep.known x old isCollection with closed | waiting
        · exact .inl (.inl closed)
        · exact ((waits x).mp waiting).elim (fun same => .inl (.inr same)) fun later => .inr (.inl later)
      · have part : x ∈ g.parts id := ((entered.met x).mp member).resolve_left old
        exact .inr (.inr ⟨part, old, graph ▸ isCollection⟩)
    visited := fun x member => by
      rcases List.mem_append.mp member with old | new
      · obtain ⟨there, isCollection⟩ := sweep.visited x old
        exact ⟨entered.keeps there, isCollection⟩
      · rw [List.mem_singleton.mp new]
        exact ⟨entered.keeps metId, collection⟩
    closed := fun x member => by
      rcases List.mem_append.mp member with old | new
      · obtain ⟨fits, rule, known⟩ := sweep.closed x old
        exact ⟨fits, rule, fun part inside => entered.keeps (known part inside)⟩
      · rw [List.mem_singleton.mp new]
        exact ⟨readable, holds, fun part inside => entered.mem_met inside⟩
    nodup := entered.nodup_queue (by simpa [head] using sweep.nodup) earlier }

theorem round (sweep : Sweep g root P done v)
    (reads : ∀ id, g.Reached root id → g.IsDict id → rule.Reads g P id) (head : v.queue = id :: queue)
    (entries : enterEntries rule { v with queue := queue } id = .ok v') :
    Sweep g root P (done ++ [id]) v' := by
  have reached := sweep.reached id (sweep.waiting id (by simp [head])).1
  obtain ⟨entered, readable, holds⟩ := entered_of_enterEntries (v := { v with queue := queue })
    (reads id reached) sweep.graph sweep.sane entries
  exact sweep.step head entered readable holds

/-- With nothing left to visit every node that the root reaches has been read. -/
theorem complete (sweep : Sweep g root P done v) (empty : v.queue = [])
    (reached : g.Reached root id) : id ∈ v.met ∧ g.Readable id ∧ (g.IsDict id → P id) := by
  have all : ∀ x ∈ v.met, (g.node x).tag.isCollection = true → x ∈ done := fun x member collection => by
    rcases sweep.known x member collection with closed | waiting
    · exact closed
    · simp [empty] at waiting
  have met : id ∈ v.met := by
    induction reached with
    | root => exact sweep.rooted
    | @part id part _ member ih =>
      cases collection : (g.node id).tag.isCollection with
      | true => exact (sweep.closed id (all id ih collection)).2.2 part member
      | false => simp [Graph.parts_of_scalar collection] at member
  refine ⟨met, ?_⟩
  cases collection : (g.node id).tag.isCollection with
  | true =>
    obtain ⟨readable, holds, _⟩ := sweep.closed id (all id met collection)
    exact ⟨readable, holds⟩
  | false =>
    have read := sweep.sane id met
    rw [sweep.graph] at read
    refine ⟨.scalar collection _ (read collection), fun dict => ?_⟩
    rw [dict.isCollection] at collection
    cases collection

theorem run {fuel : Nat} (sweep : Sweep g root P done v)
    (reads : ∀ id, g.Reached root id → g.IsDict id → rule.Reads g P id)
    (enough : g.nodes.size < fuel + done.length) (ended : v.enterAll rule fuel = .ok v') :
    ∃ done', Sweep g root P done' v' ∧ v'.queue = [] := by
  -- Every round makes one more collection done, of which there are not more than nodes.
  induction fuel generalizing v done with
  | zero =>
    have few := Graph.length_le_of_collections (List.nodup_append.mp sweep.nodup).1
      fun id member => (sweep.visited id member).2
    omega
  | succ fuel ih =>
    rw [enterAll] at ended
    split at ended
    · next empty =>
      cases ended
      exact ⟨done, sweep, empty⟩
    · next id queue head =>
      obtain ⟨middle, entries, ended⟩ := bind_eq_ok ended
      refine ih (sweep.round reads head entries) ?_ ended
      rw [List.length_append, List.length_singleton]
      omega

theorem faulty {fuel : Nat} (sweep : Sweep g root P done v)
    (reads : ∀ id, g.Reached root id → g.IsDict id → rule.Reads g P id)
    (ended : v.enterAll rule fuel = .error fault) : g.Faulty root fault := by
  induction fuel generalizing v done with
  | zero => cases ended
  | succ fuel ih =>
    rw [enterAll] at ended
    split at ended
    · cases ended
    · next id queue head =>
      obtain ⟨metId, collection⟩ := sweep.waiting id (by simp [head])
      have reached := sweep.reached id metId
      rcases bind_eq_error ended with failed | ⟨middle, entries, ended⟩
      · obtain ⟨x, here | part, at_⟩ := faultAt_of_enterEntries (v := { v with queue := queue })
          (reads id reached) sweep.graph sweep.sane collection failed
        · exact ⟨x, here ▸ reached, at_⟩
        · exact ⟨x, .part reached part, at_⟩
      · exact ih (sweep.round reads head entries) ended

end Sweep

end Visit

namespace Graph

variable {g : Graph} {rule : Rule} {P : Nat → Prop} {root id : Nat} {v : Visit} {fault : Fault}

/-- A document that has been visited to its end: what it was, and what was read of it. -/
structure Visited (g : Graph) (root : Nat) (P : Nat → Prop) (v : Visit) : Prop where
  graph : v.graph = g
  readable : ∀ id, g.Reached root id → g.Readable id
  dicts : ∀ id, g.Reached root id → g.IsDict id → P id
  scalars : ∀ id, g.Reached root id → (g.node id).tag.isCollection = false →
    g.scalarValue id = .ok (v.scalar id)

theorem visited_of_visit (reads : ∀ id, g.Reached root id → g.IsDict id → rule.Reads g P id)
    (ended : g.visit rule root = .ok v) : g.Visited root P v := by
  obtain ⟨middle, first, ended⟩ := bind_eq_ok ended
  obtain ⟨done, sweep, empty⟩ := (Sweep.start first).run reads (by simp) ended
  refine ⟨sweep.graph, fun id reached => (sweep.complete empty reached).2.1,
    fun id reached => (sweep.complete empty reached).2.2, fun id reached single => ?_⟩
  have read := sweep.sane id (sweep.complete empty reached).1
  rw [sweep.graph] at read
  exact read single

theorem faulty_of_visit (reads : ∀ id, g.Reached root id → g.IsDict id → rule.Reads g P id)
    (ended : g.visit rule root = .error fault) : g.Faulty root fault := by
  rcases bind_eq_error ended with failed | ⟨middle, first, ended⟩
  · exact ⟨root, .root, faultAt_of_enter failed⟩
  · exact (Sweep.start (P := P) first).faulty reads ended

end Graph

end PluginCompiler.Yaml
