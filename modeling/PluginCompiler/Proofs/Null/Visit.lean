import PluginCompiler.Proofs.Null.Document

/-! A document and the same one with emptied sections, visited side by side. An empty collection is one
more to wait for in the queue, and nothing is done when its turn comes; all other nodes are met in the
same order, so that both visits end well or with the same fault. -/

set_option autoImplicit false

namespace PluginCompiler.Yaml

/-- Faults of one kind. Where a repeated key stands depends on how the document is written. -/
inductive Fault.Alike : Fault → Fault → Prop where
  | same (fault : Fault) : Alike fault fault
  | moved (key : Value) (mark mark' : Mark) :
      Alike (.duplicateKey key mark) (.duplicateKey key mark')

namespace Visit

structure Abreast (g g' : Graph) (v v' : Visit) : Prop where
  graph : v.graph = g
  graph' : v'.graph = g'
  sane : v.Sane
  sane' : v'.Sane
  met : v'.met = v.met
  queue : v.queue = v'.queue.filter fun id => (g.node id).tag.isCollection
  scalar : ∀ id, (g'.node id).tag.isCollection = false → v'.scalar id = v.scalar id

/-- Two steps that both succeed, or fail alike. -/
inductive Ends (g g' : Graph) : Except Fault Visit → Except Fault Visit → Prop where
  | ok {v v' : Visit} (abreast : Abreast g g' v v') : Ends g g' (.ok v) (.ok v')
  | error {fault fault' : Fault} (alike : fault.Alike fault') : Ends g g' (.error fault) (.error fault')

variable {g g' : Graph} {root id : Nat} {r : Role} {v v' : Visit} {ids : List Nat}
  {pairs : List (Nat × Nat)}

theorem Ends.bind {x x' : Except Fault Visit} {next next' : Visit → Except Fault Visit}
    (first : Ends g g' x x')
    (further : ∀ v v', x = .ok v → x' = .ok v' → Abreast g g' v v' → Ends g g' (next v) (next' v')) :
    Ends g g' (x >>= next) (x' >>= next') := by
  cases first with
  | ok abreast => exact further _ _ rfl rfl abreast
  | error alike => exact .error alike

theorem Abreast.waiting {queue : List Nat} (abreast : Abreast g g' v v') (queue' : List Nat)
    (same : queue = queue'.filter fun id => (g.node id).tag.isCollection) :
    Abreast g g' { v with queue := queue } { v' with queue := queue' } :=
  ⟨abreast.graph, abreast.graph', abreast.sane, abreast.sane', abreast.met, same, abreast.scalar⟩

theorem abreast_start : Abreast g g' (start g) (start g') :=
  ⟨rfl, rfl, fun _ met => absurd met List.not_mem_nil, fun _ met => absurd met List.not_mem_nil, rfl,
    rfl, fun _ _ => rfl⟩

namespace Abreast

variable {value : Value} {hollow : Hollow}

theorem queued (abreast : Abreast g g' v v') (kept : g.KeptAt g' id)
    (collection : (g.node id).tag.isCollection = true) :
    Abreast g g' (v.queued id) (v'.queued id) := by
  obtain ⟨rfl, rfl, sane, sane', met, queue, scalar⟩ := abreast
  refine ⟨rfl, rfl, sane.queued collection, sane'.queued (kept.tag ▸ collection), ?_, ?_, scalar⟩
  · simp only [Visit.queued, met]
  · simp [Visit.queued, queue, collection]

theorem noted (abreast : Abreast g g' v v') (absent : id ∉ v.met)
    (read : g.scalarValue id = .ok value) (read' : g'.scalarValue id = .ok value) :
    Abreast g g' (v.noted id value) (v'.noted id value) := by
  obtain ⟨rfl, rfl, sane, sane', met, queue, scalar⟩ := abreast
  refine ⟨rfl, rfl, sane.noted absent read, sane'.noted (met ▸ absent) read', ?_, queue,
    fun other single => ?_⟩
  · simp only [Visit.noted, met]
  · rw [scalar_noted, scalar_noted, scalar other single]

/-- A null section is read at once, while the empty collection in its place has to wait. -/
theorem emptied (abreast : Abreast g g' v v') (absent : id ∉ v.met)
    (at_ : g.EmptiedAt g' root id hollow) : Abreast g g' (v.noted id .null) (v'.queued id) := by
  obtain ⟨rfl, rfl, sane, sane', met, queue, scalar⟩ := abreast
  refine ⟨rfl, rfl, sane.noted absent at_.scalarValue, sane'.queued at_.isCollection, ?_, ?_,
    fun other single => ?_⟩
  · simp only [Visit.noted, Visit.queued, met]
  · simp [Visit.noted, Visit.queued, queue, at_.single]
  · have apart : other ≠ id := by
      rintro rfl
      cases at_.isCollection.symm.trans single
    rw [scalar_noted, if_neg apart]
    exact scalar other single

end Abreast

theorem ends_enter (emptied : g.Emptied g' root) (abreast : Abreast g g' v v')
    (read : g.ReadAs root r id) : Ends g g' (v.enter id) (v'.enter id) := by
  obtain rfl := abreast.graph
  obtain rfl := abreast.graph'
  have met := abreast.met
  by_cases known : id ∈ v.met
  · rw [enter_of_met known, enter_of_met (met ▸ known)]
    exact .ok abreast
  · have absent : id ∉ v'.met := met ▸ known
    rcases emptied.node id with kept | ⟨hollow, at_⟩
    · cases collection : (v.graph.node id).tag.isCollection with
      | true =>
        rw [enter_of_collection known collection, enter_of_collection absent (kept.tag ▸ collection)]
        exact .ok (abreast.queued kept collection)
      | false =>
        have same := emptied.scalarValue read kept collection
        cases value : v.graph.scalarValue id with
        | ok value =>
          rw [enter_of_scalar known collection value,
            enter_of_scalar absent (kept.tag ▸ collection) (same.trans value)]
          exact .ok (abreast.noted known value (same.trans value))
        | error fault =>
          rw [enter_of_fault known collection value,
            enter_of_fault absent (kept.tag ▸ collection) (same.trans value)]
          exact .error (.same _)
    · rw [enter_of_scalar known at_.single at_.scalarValue,
        enter_of_collection absent at_.isCollection]
      exact .ok (abreast.emptied known at_)

theorem ends_foldlM (emptied : g.Emptied g' root) (abreast : Abreast g g' v v')
    (read : ∀ id ∈ ids, ∃ r, g.ReadAs root r id) :
    Ends g g' (ids.foldlM enter v) (ids.foldlM enter v') := by
  induction ids generalizing v v' with
  | nil => exact .ok abreast
  | cons id rest ih =>
    obtain ⟨r, here⟩ := read id List.mem_cons_self
    exact (ends_enter emptied abreast here).bind fun _ _ _ _ abreast =>
      ih abreast fun other member => read other (List.mem_cons_of_mem id member)

/-- Pairs whose keys are read as keys, and whose values in some role. -/
def ReadPairs (g : Graph) (root : Nat) (pairs : List (Nat × Nat)) : Prop :=
  ∀ p ∈ pairs, g.ReadAs root .other p.1 ∧ ∃ r, g.ReadAs root r p.2

theorem readPairs_of_readAs (read : g.ReadAs root r id) : ReadPairs g root (g.pairs id) :=
  fun _ member => ⟨.key read member, _, .value read member⟩

theorem ends_enterPairs (emptied : g.Emptied g' root) (abreast : Abreast g g' v v')
    (read : ReadPairs g root pairs) : Ends g g' (v.enterPairs pairs) (v'.enterPairs pairs) := by
  induction pairs generalizing v v' with
  | nil => exact .ok abreast
  | cons p rest ih =>
    obtain ⟨key, r, value⟩ := read p List.mem_cons_self
    refine (ends_enter emptied abreast key).bind fun w w' _ _ abreast => ?_
    rw [abreast.graph, abreast.graph', (emptied.kept_of_other key).tag]
    split
    · exact .error (.same _)
    · exact (ends_enter emptied abreast value).bind fun _ _ _ _ abreast =>
        ih abreast fun q member => read q (List.mem_cons_of_mem p member)

theorem ends_enterKeys {seen : List (Nat × Value)} (emptied : g.Emptied g' root)
    (abreast : Abreast g g' v v') (read : ReadPairs g root pairs)
    (earlier : ∀ s ∈ seen, g.KeptAt g' s.1) :
    Ends g g' (v.enterKeys seen pairs) (v'.enterKeys seen pairs) := by
  induction pairs generalizing v v' seen with
  | nil => exact .ok abreast
  | cons p rest ih =>
    obtain ⟨k, value⟩ := p
    obtain ⟨key, -⟩ := read (k, value) List.mem_cons_self
    have kept := emptied.kept_of_other key
    have later : ReadPairs g root rest := fun q member => read q (List.mem_cons_of_mem _ member)
    refine (ends_enter emptied abreast key).bind fun w w' _ _ abreast => ?_
    rw [abreast.graph, abreast.graph', kept.tag]
    split
    · exact ih abreast later earlier
    · next single =>
      have same : w'.scalar k = w.scalar k :=
        abreast.scalar k (by rw [kept.tag]; simpa using single)
      have compared : (seen.any fun s => g'.sameKey s (k, w.scalar k)) =
          seen.any fun s => g.sameKey s (k, w.scalar k) := by
        rw [Bool.eq_iff_iff, List.any_eq_true, List.any_eq_true]
        refine exists_congr fun s => and_congr_right fun member => ?_
        rw [Graph.KeptAt.sameKey (earlier s member) kept]
      simp only [same, compared]
      split
      · exact .error (.moved _ _ _)
      · exact ih abreast later (List.forall_mem_cons.mpr ⟨kept, earlier⟩)

theorem ends_enterSingles (emptied : g.Emptied g' root) (abreast : Abreast g g' v v')
    (read : ∀ id ∈ ids, g.ReadAs root .other id) :
    Ends g g' (v.enterSingles ids) (v'.enterSingles ids) := by
  induction ids generalizing v v' with
  | nil => exact .ok abreast
  | cons id rest ih =>
    have here := read id List.mem_cons_self
    have kept := emptied.kept_of_other here
    rw [enterSingles, enterSingles, abreast.graph, abreast.graph', kept.content]
    split
    · next k value content =>
      obtain ⟨key, r, value⟩ := readPairs_of_readAs here (k, value)
        (by rw [Graph.pairs_of_mapping content]; exact List.mem_cons_self)
      refine (ends_enter emptied abreast key).bind fun _ _ _ _ abreast => ?_
      exact (ends_enter emptied abreast value).bind fun _ _ _ _ abreast =>
        ih abreast fun other member => read other (List.mem_cons_of_mem id member)
    · exact .error (.same _)

theorem ends_distinctly (emptied : g.Emptied g' root) (abreast : Abreast g g' v v')
    (read : g.ReadAs root r id) (kept : g.KeptAt g' id) (dict : g.IsDict id) :
    Ends g g' (v.distinctly id) (v'.distinctly id) := by
  cases content : (g.node id).content with
  | mapping pairs =>
    have inside := readPairs_of_readAs read
    rw [Graph.pairs_of_mapping content] at inside
    have first : (v.graph.node id).content = .mapping pairs := by rw [abreast.graph, content]
    have second : (v'.graph.node id).content = .mapping pairs := by
      rw [abreast.graph', kept.content, content]
    rw [distinctly_of_mapping abreast.sane first, distinctly_of_mapping abreast.sane' second]
    have keys : Ends g g' (v.enterKeys [] pairs) (v'.enterKeys [] pairs) :=
      ends_enterKeys emptied abreast inside (by simp)
    exact keys.bind fun _ _ _ _ abreast => ends_enterPairs emptied abreast inside
  | sequence items =>
    simp only [distinctly, abreast.graph, abreast.graph', kept.content, content]
    cases items with
    | nil => exact .error (.same _)
    | cons item rest =>
      have other : (g.node id).tag ≠ .seq := by rcases dict with tag | tag <;> simp [tag]
      have held := Graph.readAs_item read content other List.mem_cons_self
      simp only [(emptied.kept_of_other held).kindName]
      exact .error (.same _)
  | scalar text =>
    simp only [distinctly, abreast.graph, abreast.graph', kept.content, content]
    exact .error (.same _)

theorem ends_enterEntries (emptied : g.Emptied g' root) (abreast : Abreast g g' v v')
    (read : g.ReadAs root r id) (kept : g.KeptAt g' id) :
    Ends g g' (v.enterEntries distinctly id) (v'.enterEntries distinctly id) := by
  have singles {items : List Nat} (other : (g.node id).tag ≠ .seq)
      (content : (g.node id).content = .sequence items) :
      Ends g g' (v.enterSingles items) (v'.enterSingles items) :=
    ends_enterSingles emptied abreast fun _ => Graph.readAs_item read content other
  simp only [enterEntries, abreast.graph, abreast.graph', kept.tag, kept.content]
  split
  · next items tag content =>
    exact ends_foldlM emptied abreast fun item member => ⟨_, .item read content member⟩
  · next items tag content => exact singles (by simp [tag]) content
  · next items tag content => exact singles (by simp [tag]) content
  · next tag => exact ends_distinctly emptied abreast read kept (.inl tag)
  · next tag => exact ends_distinctly emptied abreast read kept (.inr tag)
  · exact .error (.same _)

theorem enterEntries_of_hollow {hollow : Hollow} (sane : v'.Sane) (graph : v'.graph = g')
    (at_ : g.EmptiedAt g' root id hollow) : v'.enterEntries distinctly id = .ok v' := by
  subst graph
  have tag := at_.tag
  have content := at_.content
  cases hollow with
  | list =>
    simp only [enterEntries, tag, content, Hollow.tag, Hollow.content]
    rfl
  | map =>
    simp only [enterEntries, tag, content, Hollow.tag, Hollow.content]
    rw [distinctly_of_mapping sane content]
    rfl

theorem enterAll_of_done (rule : Rule) (fuel : Nat) (done : v.queue = []) :
    v.enterAll rule fuel = .ok v := by
  cases fuel with
  | zero => rfl
  | succ fuel => rw [enterAll, done]

theorem enterAll_of_waiting {rule : Rule} {fuel : Nat} {queue : List Nat} (head : v.queue = id :: queue) :
    v.enterAll rule (fuel + 1) = (do
      let v ← { v with queue := queue }.enterEntries rule id
      v.enterAll rule fuel) := by
  rw [enterAll, head]

/-- What the comparing rule has found of the mappings that are done. -/
def Told (g : Graph) (id : Nat) : Prop := g.Apart (g.pairs id) ∧ g.Ordinary (g.pairs id)

theorem ends_enterAll {done : List Nat} {fuel fuel' : Nat} (emptied : g.Emptied g' root)
    (abreast : Abreast g g' v v') (sweep : Sweep g' root (Told g') done v')
    (enough : g'.nodes.size < fuel' + done.length) (more : fuel' ≤ fuel) :
    Ends g g' (v.enterAll distinctly fuel) (v'.enterAll distinctly fuel') := by
  -- The induction follows the second visit, which waits for more collections than the first.
  induction fuel' generalizing fuel v v' done with
  | zero =>
    have few := Graph.length_le_of_collections (List.nodup_append.mp sweep.nodup).1
      fun id member => (sweep.visited id member).2
    omega
  | succ fuel' ih =>
    cases waiting : v'.queue with
    | nil =>
      have done : v.queue = [] := by rw [abreast.queue, waiting]; rfl
      rw [enterAll_of_done _ _ waiting, enterAll_of_done _ _ done]
      exact .ok abreast
    | cons id queue =>
      obtain ⟨met, collection⟩ := sweep.waiting id (by simp [waiting])
      obtain ⟨r, read⟩ := emptied.readAs_of_reached (sweep.reached id met)
      have steps (middle : Visit)
          (entries : { v' with queue := queue }.enterEntries distinctly id = .ok middle) :
          Sweep g' root (Told g') (done ++ [id]) middle :=
        sweep.round (fun _ _ dict => Graph.reads_distinctly dict) waiting entries
      have fewer : g'.nodes.size < fuel' + (done ++ [id]).length := by
        rw [List.length_append, List.length_singleton]
        omega
      rw [enterAll_of_waiting waiting]
      rcases emptied.node id with kept | ⟨hollow, at_⟩
      · obtain ⟨fuel, rfl⟩ : ∃ n, fuel = n + 1 := ⟨fuel - 1, by omega⟩
        have both : v.queue = id :: queue.filter fun id => (g.node id).tag.isCollection := by
          rw [abreast.queue, waiting, List.filter_cons_of_pos (by rw [← kept.tag]; exact collection)]
        rw [enterAll_of_waiting both]
        have step := ends_enterEntries emptied (abreast.waiting queue rfl) read kept
        exact step.bind fun _ _ _ entries abreast =>
          ih abreast (steps _ entries) fewer (by omega)
      · have entries : { v' with queue := queue }.enterEntries distinctly id =
            .ok { v' with queue := queue } := enterEntries_of_hollow sweep.sane sweep.graph at_
        have only : v.queue = queue.filter fun id => (g.node id).tag.isCollection := by
          rw [abreast.queue, waiting, List.filter_cons_of_neg (by simp [at_.single])]
        rw [entries]
        exact ih (abreast.waiting queue only) (steps _ entries) fewer (by omega)

end Visit

theorem Graph.ends_visit {g g' : Graph} {root : Nat} (emptied : g.Emptied g' root) :
    Visit.Ends g g' (g.visit Visit.distinctly root) (g'.visit Visit.distinctly root) := by
  refine (Visit.ends_enter emptied Visit.abreast_start .root).bind fun v v' _ first abreast => ?_
  exact Visit.ends_enterAll emptied abreast (.start first) (by simp) (by rw [emptied.size])

end PluginCompiler.Yaml
