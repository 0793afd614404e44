import PluginCompiler.Proofs.Yaml.Sweep

/-! The two loaders beside each other. Where no mapping repeats a key, the one that compares keys
accepts what the plain one accepts as long as no key lends pairs, and gives the same data. -/

set_option autoImplicit false

namespace PluginCompiler.Yaml

open Visit

namespace Graph

variable {g : Graph} {root id : Nat}

/-- No mapping under the root has two equal keys. -/
def Distinct (g : Graph) (root : Nat) : Prop :=
  ∀ id, g.Reached root id → g.IsDict id → g.Apart (g.pairs id)

/-- No mapping under the root has a key that lends pairs to it or stands for it. -/
def Unmerged (g : Graph) (root : Nat) : Prop :=
  ∀ id, g.Reached root id → g.IsDict id → g.Ordinary (g.pairs id)

theorem distinct_of_all
    (all : ∀ id < g.nodes.size, g.IsDict id → g.Apart (g.pairs id)) : g.Distinct root :=
  fun id _ dict => all id (lt_size_of_isCollection dict.isCollection) dict

theorem unmerged_of_all
    (all : ∀ id < g.nodes.size, g.IsDict id → g.Ordinary (g.pairs id)) : g.Unmerged root :=
  fun id _ dict => all id (lt_size_of_isCollection dict.isCollection) dict

section
variable {find find' : Known → Nat → Found Value} {ids : List Nat} {pairs : List (Nat × Nat)}

theorem gather_congr (same : ∀ id ∈ ids, ∀ known, find known id = find' known id) (known : Known) :
    gather find known ids = gather find' known ids := by
  induction ids generalizing known with
  | nil => rfl
  | cons id rest ih =>
    have rest_eq := ih fun other member => same other (List.mem_cons_of_mem id member)
    simp only [gather, same id List.mem_cons_self, rest_eq]

theorem gatherPairs_congr
    (same : ∀ id ∈ pairs.flatMap fun p => [p.1, p.2], ∀ known, find known id = find' known id)
    (known : Known) : gatherPairs find known pairs = gatherPairs find' known pairs := by
  induction pairs generalizing known with
  | nil => rfl
  | cons p rest ih =>
    have rest_eq := ih fun other member => same other (by simpa using .inr (.inr (by simpa using member)))
    simp only [gatherPairs, same p.1 (by simp), same p.2 (by simp), rest_eq]

theorem collect_congr (readable : g.Readable id) (collection : (g.node id).tag.isCollection = true)
    (same : ∀ part ∈ g.parts id, ∀ known, find known part = find' known part) (known : Known) :
    g.collect find known (g.node id) = g.collect find' known (g.node id) := by
  cases readable with
  | scalar single => simp [single] at collection
  | items tag items content =>
    rw [Graph.parts_of_items tag content] at same
    simp only [collect, content, tag, gather_congr same, ↓reduceIte]
  | singles tag items content =>
    have other := Graph.ne_seq_of_singles tag
    rw [Graph.parts_of_singles tag content] at same
    simp only [collect, content, other, gatherPairs_congr same, ↓reduceIte]
  | dict tag pairs content =>
    rw [parts_of_dict tag content] at same
    simp only [collect, content, gatherPairs_congr same]

end

variable {scalar scalar' : Nat → Value}

theorem valueIn_congr (readable : ∀ id, g.Reached root id → g.Readable id)
    (same : ∀ id, g.Reached root id → (g.node id).tag.isCollection = false →
      scalar id = scalar' id) (depth : Nat) (around : List Nat) (known : Known)
    (reached : g.Reached root id) :
    g.valueIn scalar depth around known id = g.valueIn scalar' depth around known id := by
  induction depth generalizing around known id with
  | zero => rfl
  | succ depth ih =>
    rw [valueIn, valueIn]
    cases collection : (g.node id).tag.isCollection with
    | false => simp only [same id reached collection, Bool.false_eq_true, ↓reduceIte]
    | true =>
      have inside : g.collect (g.valueIn scalar depth (id :: around)) known (g.node id) =
          g.collect (g.valueIn scalar' depth (id :: around)) known (g.node id) :=
        collect_congr (readable id reached) collection
          (fun part member known => ih (id :: around) known (.part reached member)) known
      simp only [inside, ↓reduceIte]

end Graph

namespace Visit

variable {v v' : Visit} {g : Graph} {root : Nat} {P Q : Nat → Prop}

theorem value_congr (visited : g.Visited root P v) (visited' : g.Visited root Q v') :
    v.value root = v'.value root := by
  have same : ∀ id, g.Reached root id → (g.node id).tag.isCollection = false →
      v.scalar id = v'.scalar id := fun id reached single => by
    have read := visited.scalars id reached single
    rw [visited'.scalars id reached single] at read
    exact (Except.ok.inj read).symm
  rw [Visit.value, Visit.value, visited.graph, visited'.graph,
    Graph.valueIn_congr visited.readable same _ [] [] .root]

end Visit

namespace Graph

variable {g : Graph} {root : Nat} {v : Visit}

/-- The comparing rule goes through a document whenever the plain one does, as long as keys are
ordinary and none is repeated, and the other way round. -/
theorem visit_alike (distinct : g.Distinct root) (unmerged : g.Unmerged root) :
    ((∃ v, g.visit distinctly root = .ok v) ↔ ∃ v, g.visit plainly root = .ok v) := by
  have readsPlain : ∀ id, g.Reached root id → g.IsDict id → Rule.Reads plainly g (fun _ => True) id :=
    fun id reached dict => reads_plainly dict (unmerged id reached dict) (distinct id reached dict)
  have spotless : (∀ id, g.Reached root id → g.Readable id) → ∀ fault, ¬ g.Faulty root fault := by
    rintro readable fault ⟨id, reached, at_⟩
    obtain ⟨dict, key, mark, first⟩ := at_.repeats (readable id reached)
    exact not_firstRepeat_of_apart (distinct id reached dict) first
  constructor
  · rintro ⟨v, ended⟩
    have visited := visited_of_visit (fun _ _ dict => reads_distinctly dict) ended
    cases plain : g.visit plainly root with
    | ok v' => exact ⟨v', rfl⟩
    | error fault =>
      exact absurd (faulty_of_visit readsPlain plain) (spotless visited.readable fault)
  · rintro ⟨v, ended⟩
    have visited := visited_of_visit readsPlain ended
    cases compared : g.visit distinctly root with
    | ok v' => exact ⟨v', rfl⟩
    | error fault =>
      exact absurd (faulty_of_visit (fun _ _ dict => reads_distinctly dict) compared)
        (spotless visited.readable fault)

end Graph

def Kind.token (kind : Kind) (start stop : Nat) : Token := ⟨kind, ⟨start, 0, start⟩, ⟨stop, 0, stop⟩⟩

theorem ok_of_toOption {ε α : Type} {x : Except ε α} {a : α} (found : x.toOption = some a) :
    x = .ok a := by
  cases x with
  | error e => cases found
  | ok b =>
    cases found
    rfl

theorem ofText_of_tokens {source : List Char} (ts : List Token) {root : Option Nat}
    {nodes : List Node}
    (scanned : (glyphs? source).map (fun gs => (tokens gs).toOption) = some (some ts))
    (composed : ((Compose.document (4 * ts.length + 8)).run
        ⟨ts, #[], [], Compose.standardHandles⟩).toOption.map (fun done => (done.1, done.2.nodes.toList)) =
      some (root, nodes)) :
    Graph.ofText source = .ok ⟨nodes.toArray, root⟩ := by
  obtain ⟨gs, glyphs, tokened⟩ := Option.map_eq_some_iff.mp scanned
  obtain ⟨⟨root', draft⟩, done, same⟩ := Option.map_eq_some_iff.mp composed
  cases same
  simp only [Graph.ofText, glyphs, ok_of_toOption tokened, bind, Except.bind, ok_of_toOption done]
  rfl

variable {source : List Char} {rule : Rule} {fault : Fault}

/-- What holds of the document of a text, if there is one. -/
def InDocument (source : List Char) (P : Graph → Nat → Prop) : Prop :=
  ∀ g root, Graph.ofText source = .ok g → g.root = some root → P g root

/-- A fault of the text itself, or of a node that the root of its document reaches. -/
inductive HasFault (source : List Char) : Fault → Prop where
  | text {stop : Stop} (stopped : Graph.ofText source = .error stop) :
      HasFault source (.ofStop stop)
  | node {g : Graph} {root : Nat} {fault : Fault} (composed : Graph.ofText source = .ok g)
      (rooted : g.root = some root) (faulty : g.Faulty root fault) : HasFault source fault

theorem loadBy_of_stop {stop : Stop} (stopped : Graph.ofText source = .error stop) :
    loadBy rule source = .error (.ofStop stop) := by
  rw [loadBy, stopped]
  rfl

theorem mapError_ok {ε ε' α : Type} (f : ε → ε') (a : α) :
    (Except.ok a : Except ε α).mapError f = .ok a := rfl

theorem loadBy_of_empty {g : Graph} (composed : Graph.ofText source = .ok g)
    (empty : g.root = none) : loadBy rule source = .ok .null := by
  simp only [loadBy, composed, mapError_ok, bind, Except.bind, empty]
  rfl

theorem loadBy_of_root {g : Graph} {root : Nat} (composed : Graph.ofText source = .ok g)
    (rooted : g.root = some root) :
    loadBy rule source = (do return (← g.visit rule root).value root) := by
  simp only [loadBy, composed, mapError_ok, bind, Except.bind, rooted]

theorem inDocument_iff {g : Graph} {root : Nat} {P : Graph → Nat → Prop}
    (composed : Graph.ofText source = .ok g) (rooted : g.root = some root) :
    InDocument source P ↔ P g root := by
  refine ⟨fun holds => holds g root composed rooted, fun holds g' root' composed' rooted' => ?_⟩
  cases composed.symm.trans composed'
  cases rooted.symm.trans rooted'
  exact holds

theorem hasFault_of_loadBy {P : Graph → Nat → Prop}
    (reads : InDocument source fun g root =>
      ∀ id, g.Reached root id → g.IsDict id → rule.Reads g (P g) id)
    (ended : loadBy rule source = .error fault) : HasFault source fault := by
  cases composed : Graph.ofText source with
  | error stop =>
    rw [loadBy_of_stop composed] at ended
    cases ended
    exact .text composed
  | ok g =>
    cases rooted : g.root with
    | none =>
      rw [loadBy_of_empty composed rooted] at ended
      cases ended
    | some root =>
      rw [loadBy_of_root composed rooted] at ended
      rcases bind_eq_error ended with failed | ⟨v, _, impossible⟩
      · exact .node composed rooted (Graph.faulty_of_visit (reads g root composed rooted) failed)
      · cases impossible

theorem hasFault_of_load (ended : load source = .error fault) : HasFault source fault :=
  hasFault_of_loadBy (P := fun g id => g.Apart (g.pairs id) ∧ g.Ordinary (g.pairs id))
    (fun _ _ _ _ _ _ dict => Graph.reads_distinctly dict) ended

theorem firstRepeat_of_load {key : Value} {mark : Mark}
    (ended : load source = .error (.duplicateKey key mark)) :
    ∃ g root id, Graph.ofText source = .ok g ∧ g.root = some root ∧ g.Reached root id ∧
      g.IsDict id ∧ g.FirstRepeat id key mark := by
  have fault := hasFault_of_load ended
  generalize same : Fault.duplicateKey key mark = fault' at fault
  cases fault with
  | @text stop => cases stop <;> cases same
  | @node g root _ composed rooted faulty =>
    subst same
    obtain ⟨id, reached, at_⟩ := faulty
    exact ⟨g, root, id, composed, rooted, reached, Graph.firstRepeat_of_faultAt at_⟩

theorem loadPlain_of_load {value : Value} (distinct : InDocument source Graph.Distinct)
    (ended : load source = .ok value) :
    loadPlain source = .ok value ∧ InDocument source Graph.Unmerged := by
  cases composed : Graph.ofText source with
  | error stop =>
    rw [load, loadBy_of_stop composed] at ended
    cases ended
  | ok g =>
    cases rooted : g.root with
    | none =>
      rw [load, loadBy_of_empty composed rooted] at ended
      cases ended
      refine ⟨loadBy_of_empty composed rooted, fun g' root composed' rooted' => ?_⟩
      cases composed.symm.trans composed'
      simp [rooted] at rooted'
    | some root =>
      rw [load, loadBy_of_root composed rooted] at ended
      rw [loadPlain, loadBy_of_root composed rooted, inDocument_iff composed rooted]
      rw [inDocument_iff composed rooted] at distinct
      obtain ⟨v, visit, same⟩ := bind_eq_ok ended
      cases same
      have visited := Graph.visited_of_visit (fun _ _ dict => Graph.reads_distinctly dict) visit
      have unmerged : g.Unmerged root := fun id reached dict => (visited.dicts id reached dict).2
      obtain ⟨v', plain⟩ := (Graph.visit_alike distinct unmerged).mp ⟨v, visit⟩
      have visited' := Graph.visited_of_visit (fun id reached dict =>
        Graph.reads_plainly dict (unmerged id reached dict) (distinct id reached dict)) plain
      rw [plain, value_congr visited visited']
      exact ⟨rfl, unmerged⟩

theorem load_of_loadPlain {value : Value} (distinct : InDocument source Graph.Distinct)
    (unmerged : InDocument source Graph.Unmerged) (ended : loadPlain source = .ok value) :
    load source = .ok value := by
  cases composed : Graph.ofText source with
  | error stop =>
    rw [loadPlain, loadBy_of_stop composed] at ended
    cases ended
  | ok g =>
    cases rooted : g.root with
    | none =>
      rw [loadPlain, loadBy_of_empty composed rooted] at ended
      rw [load, loadBy_of_empty composed rooted, ended]
    | some root =>
      rw [inDocument_iff composed rooted] at distinct unmerged
      rw [loadPlain, loadBy_of_root composed rooted] at ended
      rw [load, loadBy_of_root composed rooted]
      obtain ⟨v, visit, same⟩ := bind_eq_ok ended
      cases same
      have visited := Graph.visited_of_visit (fun id reached dict =>
        Graph.reads_plainly dict (unmerged id reached dict) (distinct id reached dict)) visit
      obtain ⟨v', compared⟩ := (Graph.visit_alike distinct unmerged).mpr ⟨v, visit⟩
      have visited' :=
        Graph.visited_of_visit (fun _ _ dict => Graph.reads_distinctly dict) compared
      rw [compared, value_congr visited visited']
      rfl

/-- Where no mapping repeats a key, the comparing loader accepts what the plain one accepts if no
key lends pairs, with the same data, and nothing else. Both fail at faults of the document, and so
with the same one if all its faults are the same. -/
theorem load_decided_by_loadPlain (source : List Char)
    (distinct : InDocument source Graph.Distinct) :
    (∀ value, load source = .ok value ↔
      loadPlain source = .ok value ∧ InDocument source Graph.Unmerged) ∧
    (InDocument source Graph.Unmerged →
      (∀ fault, load source = .error fault → HasFault source fault) ∧
      (∀ fault, loadPlain source = .error fault → HasFault source fault) ∧
      ∀ fault, (∀ other, HasFault source other → other = fault) →
        (load source = .error fault ↔ loadPlain source = .error fault)) := by
  have comparing : ∀ fault, load source = .error fault → HasFault source fault :=
    fun _ => hasFault_of_loadBy (P := fun g id => g.Apart (g.pairs id) ∧ g.Ordinary (g.pairs id))
      fun _ _ _ _ _ _ dict => Graph.reads_distinctly dict
  refine ⟨fun value => ⟨loadPlain_of_load distinct, fun ⟨ended, unmerged⟩ =>
    load_of_loadPlain distinct unmerged ended⟩, fun unmerged => ?_⟩
  have plain : ∀ fault, loadPlain source = .error fault → HasFault source fault :=
    fun _ => hasFault_of_loadBy (P := fun _ _ => True) fun g root composed rooted id reached dict =>
      Graph.reads_plainly dict (unmerged g root composed rooted id reached dict)
        (distinct g root composed rooted id reached dict)
  -- Where one fails the other does not finish, and what it fails with is a fault of the document.
  refine ⟨comparing, plain, fun fault only => ⟨fun failed => ?_, fun failed => ?_⟩⟩
  · cases ended : loadPlain source with
    | ok value =>
      rw [load_of_loadPlain distinct unmerged ended] at failed
      cases failed
    | error other => rw [only other (plain other ended)]
  · cases ended : load source with
    | ok value =>
      rw [(loadPlain_of_load distinct ended).1] at failed
      cases failed
    | error other => rw [only other (comparing other ended)]

/-- A mapping with an alias in it: `{a: &b {}, c: *b}`. -/
theorem load_decided_by_loadPlain_shared :
    InDocument "{a: &b {}, c: *b}".toList Graph.Distinct ∧
      load "{a: &b {}, c: *b}".toList = .ok (.map [(.text "a", .map []), (.text "c", .map [])]) := by
  have composed : Graph.ofText "{a: &b {}, c: *b}".toList = .ok ⟨[
      ⟨.map, .mapping [(1, 2), (3, 2)], ⟨0, 0, 0⟩⟩, ⟨.str, .scalar "a", ⟨1, 0, 1⟩⟩,
      ⟨.map, .mapping [], ⟨4, 0, 4⟩⟩, ⟨.str, .scalar "c", ⟨11, 0, 11⟩⟩].toArray, some 0⟩ := by
    apply ofText_of_tokens [Kind.flowMappingStart.token 0 1, Kind.key.token 1 1,
      (Kind.scalar "a" true).token 1 2, Kind.value.token 2 3, (Kind.anchor "b").token 4 6,
      Kind.flowMappingStart.token 7 8, Kind.flowMappingEnd.token 8 9, Kind.flowEntry.token 9 10,
      Kind.key.token 11 11, (Kind.scalar "c" true).token 11 12, Kind.value.token 12 13,
      (Kind.alias "b").token 14 16, Kind.flowMappingEnd.token 16 17, Kind.streamEnd.token 17 17]
    · decide +kernel
    · decide +kernel
  have distinct : InDocument "{a: &b {}, c: *b}".toList Graph.Distinct :=
    (inDocument_iff composed rfl).mpr (Graph.distinct_of_all (by decide +kernel))
  have unmerged : InDocument "{a: &b {}, c: *b}".toList Graph.Unmerged :=
    (inDocument_iff composed rfl).mpr (Graph.unmerged_of_all (by decide +kernel))
  have plain : loadPlain "{a: &b {}, c: *b}".toList =
      .ok (.map [(.text "a", .map []), (.text "c", .map [])]) := by
    rw [loadPlain, loadBy_of_root composed rfl]
    rfl
  exact ⟨distinct, ((load_decided_by_loadPlain _ distinct).1 _).mpr ⟨plain, unmerged⟩⟩

/-- The mapping `{a: &b {}, <<: *b}` repeats no key, and only the plain loader accepts it. -/
theorem not_load_of_loadPlain :
    ¬ ∀ source, InDocument source Graph.Distinct →
      ∀ value, loadPlain source = .ok value → load source = .ok value := by
  intro alike
  have composed : Graph.ofText "{a: &b {}, <<: *b}".toList = .ok ⟨[
      ⟨.map, .mapping [(1, 2), (3, 2)], ⟨0, 0, 0⟩⟩, ⟨.str, .scalar "a", ⟨1, 0, 1⟩⟩,
      ⟨.map, .mapping [], ⟨4, 0, 4⟩⟩, ⟨.merge, .scalar "<<", ⟨11, 0, 11⟩⟩].toArray, some 0⟩ := by
    apply ofText_of_tokens [Kind.flowMappingStart.token 0 1, Kind.key.token 1 1,
      (Kind.scalar "a" true).token 1 2, Kind.value.token 2 3, (Kind.anchor "b").token 4 6,
      Kind.flowMappingStart.token 7 8, Kind.flowMappingEnd.token 8 9, Kind.flowEntry.token 9 10,
      Kind.key.token 11 11, (Kind.scalar "<<" true).token 11 13, Kind.value.token 13 14,
      (Kind.alias "b").token 15 17, Kind.flowMappingEnd.token 17 18, Kind.streamEnd.token 18 18]
    · decide +kernel
    · decide +kernel
  have distinct : InDocument "{a: &b {}, <<: *b}".toList Graph.Distinct :=
    (inDocument_iff composed rfl).mpr (Graph.distinct_of_all (by decide +kernel))
  have plain : loadPlain "{a: &b {}, <<: *b}".toList = .ok (.map [(.text "a", .map [])]) := by
    rw [loadPlain, loadBy_of_root composed rfl]
    rfl
  have refused : load "{a: &b {}, <<: *b}".toList = .error .malformed := by
    rw [load, loadBy_of_root composed rfl]
    rfl
  rw [alike _ distinct _ plain] at refused
  cases refused

end PluginCompiler.Yaml
