import Mathlib.Data.List.Forall2
import PluginCompiler.Proofs.Yaml.Sweep

/-! Data beside the nodes that it comes from. Every mapping has an entry for each pair of its node, in
the same order; only the outermost one may have been amended since. -/

set_option autoImplicit false

namespace PluginCompiler.Yaml

open Value (replace replaceAll replaceEntries)

/-- The keys under which the outermost mapping is amended. -/
def IsAmended (key : Value) : Prop := key = .text "package_root" ∨ key = .text "spec_location"

mutual
/-- A value that a node has, as far as texts, numbers and mappings go. -/
def Depicts (g : Graph) (root : Nat) : Value → Nat → Prop
  | .map entries, id =>
    (g.node id).tag = .map ∧
      (id = root → ∃ s, (Value.text "package_root", Value.text s) ∈ entries) ∧
      DepictsEntries g root (id = root) entries (g.pairs id)
  | .knot label body, id =>
    label = id ∧ (g.node id).tag.isCollection = true ∧ Depicts g root body id
  | .again label, id => label = id ∧ (g.node id).tag.isCollection = true
  | .list _, id | .tuple _, id | .set _, id =>
    (g.node id).tag.isCollection = true ∧ (g.node id).tag ≠ .map
  | v, id => (g.node id).tag.isCollection = false ∧ g.scalarValue id = .ok v

/-- Entries for the pairs of a mapping, of which those that are amended may have a value of their
own or no pair at all. -/
def DepictsEntries (g : Graph) (root : Nat) (amended : Prop) :
    List (Value × Value) → List (Nat × Nat) → Prop
  | [], pairs => pairs = []
  | (k, _) :: rest, [] => (amended ∧ IsAmended k) ∧ DepictsEntries g root amended rest []
  | (k, v) :: rest, (key, value) :: pairs =>
    Depicts g root k key ∧ (Depicts g root v value ∨ amended ∧ IsAmended k) ∧
      DepictsEntries g root amended rest pairs
end

variable {g : Graph} {root id label : Nat}

@[simp] theorem replace_text {by_ : Value} (s : String) :
    replace label by_ (.text s) = .text s := by simp only [replace]

theorem isAmended_replace {by_ k : Value} (key : IsAmended k) : IsAmended (replace label by_ k) := by
  rcases key with rfl | rfl
  · exact .inl (replace_text _)
  · exact .inr (replace_text _)

theorem mem_replaceEntries_of_texts {by_ : Value} {name s : String} :
    (entries : List (Value × Value)) → (Value.text name, Value.text s) ∈ entries →
      (Value.text name, Value.text s) ∈ replaceEntries label by_ entries
  | (k, v) :: rest, member => by
    rw [replaceEntries]
    rcases List.mem_cons.mp member with here | later
    · cases here
      simp
    · exact List.mem_cons_of_mem _ (mem_replaceEntries_of_texts rest later)

mutual
theorem depicts_replace {by_ : Value} (bound : Depicts g root by_ label) :
    (v : Value) → (id : Nat) → Depicts g root v id → Depicts g root (replace label by_ v) id
  | .map entries, id, depicts => by
    obtain ⟨tag, amended, inside⟩ := depicts
    rw [replace]
    refine ⟨tag, fun outermost => ?_, depictsEntries_replace bound entries (g.pairs id) inside⟩
    obtain ⟨s, member⟩ := amended outermost
    exact ⟨s, mem_replaceEntries_of_texts entries member⟩
  | .knot l body, id, depicts => by
    obtain ⟨same, collection, inside⟩ := depicts
    rw [replace]
    exact ⟨same, collection, depicts_replace bound body id inside⟩
  | .again l, id, depicts => by
    obtain ⟨rfl, collection⟩ := depicts
    rw [replace]
    split
    · next same =>
      subst same
      exact bound
    · exact ⟨rfl, collection⟩
  | .list _, _, depicts | .tuple _, _, depicts | .set _, _, depicts => by
    rw [replace]
    exact depicts
  | .null, _, depicts | .bool _, _, depicts | .int _, _, depicts | .float _, _, depicts
  | .text _, _, depicts | .bytes _, _, depicts | .date _, _, depicts | .moment _, _, depicts => by
    simpa only [replace] using depicts

theorem depictsEntries_replace {by_ : Value} (bound : Depicts g root by_ label) {amended : Prop} :
    (entries : List (Value × Value)) → (pairs : List (Nat × Nat)) →
      DepictsEntries g root amended entries pairs →
      DepictsEntries g root amended (replaceEntries label by_ entries) pairs
  | [], _, depicts => depicts
  | (k, v) :: rest, [], depicts => by
    obtain ⟨⟨open_, key⟩, further⟩ := depicts
    rw [replaceEntries]
    exact ⟨⟨open_, isAmended_replace key⟩, depictsEntries_replace bound rest [] further⟩
  | (k, v) :: rest, (key, value) :: pairs, depicts => by
    obtain ⟨first, second, further⟩ := depicts
    rw [replaceEntries]
    refine ⟨depicts_replace bound k key first, ?_, depictsEntries_replace bound rest pairs further⟩
    exact second.imp (depicts_replace bound v value) (.imp_right isAmended_replace)
end

theorem depicts_opened {v : Value} (depicts : Depicts g root v id) : Depicts g root v.opened id := by
  cases v with
  | knot l body =>
    have whole : Depicts g root (.knot l body) l := ⟨rfl, depicts.1 ▸ depicts.2⟩
    exact depicts_replace whole body id depicts.2.2
  | _ => exact depicts

def IsSingle : Value → Bool
  | .list _ | .tuple _ | .set _ | .map _ | .knot _ _ | .again _ => false
  | _ => true

theorem isSingle_of_timeOfText {text : String} {v : Value} (read : timeOfText text = .ok v) :
    IsSingle v = true := by
  unfold timeOfText at read
  split at read
  · cases read
  · dsimp only at read
    split at read
    · obtain ⟨date, _, rfl⟩ := map_eq_ok read
      rfl
    · split at read
      · split at read
        · cases read
        · obtain ⟨date, _, read⟩ := bind_eq_ok read
          obtain ⟨moment, _, read⟩ := bind_eq_ok read
          cases read
          rfl
      · obtain ⟨date, _, read⟩ := bind_eq_ok read
        obtain ⟨moment, _, read⟩ := bind_eq_ok read
        cases read
        rfl

theorem isSingle_of_read {tag : Tag} {text : String} {v : Value} (read : tag.read text = .ok v) :
    IsSingle v = true := by
  cases tag with
  | str | null =>
    cases read
    rfl
  | int | float | bool | binary =>
    obtain ⟨a, _, rfl⟩ := map_eq_ok read
    rfl
  | timestamp => exact isSingle_of_timeOfText read
  | _ => cases read

theorem depicts_of_scalarValue {v : Value} (read : g.scalarValue id = .ok v) :
    Depicts g root v id := by
  obtain ⟨text, readText⟩ := Graph.read_of_scalarValue read
  have single := isSingle_of_read readText
  have whole := And.intro (Graph.tag_of_scalarValue read).1 read
  cases v <;> first | exact whole | cases single

theorem eq_of_depicts {v w : Value} (depicts : Depicts g root v id)
    (read : g.scalarValue id = .ok w) : v = w := by
  have single := (Graph.tag_of_scalarValue read).1
  cases v with
  | map =>
    have tag := depicts.1
    rw [tag] at single
    cases single
  | list | tuple | set =>
    have collection := depicts.1
    rw [collection] at single
    cases single
  | knot =>
    have collection := depicts.2.1
    rw [collection] at single
    cases single
  | again =>
    have collection := depicts.2
    rw [collection] at single
    cases single
  | _ => exact Except.ok.inj (depicts.2.symm.trans read)

/-- What has been found so far is right. -/
def Sound (g : Graph) (root : Nat) (known : Known) : Prop := ∀ e ∈ known, Depicts g root e.2 e.1

/-- Values found for nodes are right, whatever right ones are known before. -/
def Finds (g : Graph) (root : Nat) (find : Known → Nat → Found Value) (ids : List Nat) : Prop :=
  ∀ id ∈ ids, ∀ known, Sound g root known →
    Depicts g root (find known id).result id ∧ Sound g root (find known id).known

section
variable {find : Known → Nat → Found Value} {ids : List Nat} {known : Known}

theorem sound_of_gather (finds : Finds g root find ids) (sound : Sound g root known) :
    Sound g root (Graph.gather find known ids).known := by
  induction ids generalizing known with
  | nil => exact sound
  | cons id rest ih =>
    have first := (finds id List.mem_cons_self known sound).2
    exact ih (fun other member => finds other (List.mem_cons_of_mem id member)) first

theorem depictsEntries_of_gatherPairs {pairs : List (Nat × Nat)} (amended : Prop)
    (finds : Finds g root find (pairs.flatMap fun p => [p.1, p.2])) (sound : Sound g root known) :
    DepictsEntries g root amended (Graph.gatherPairs find known pairs).result pairs ∧
      Sound g root (Graph.gatherPairs find known pairs).known := by
  induction pairs generalizing known with
  | nil => exact ⟨rfl, sound⟩
  | cons p rest ih =>
    obtain ⟨depictsKey, soundKey⟩ := finds p.1 (by simp) known sound
    obtain ⟨depictsValue, soundValue⟩ := finds p.2 (by simp) _ soundKey
    obtain ⟨further, soundRest⟩ :=
      ih (fun other member => finds other (by simpa using .inr (.inr (by simpa using member)))) soundValue
    exact ⟨⟨depictsKey, .inl depictsValue, further⟩, soundRest⟩

theorem depicts_of_collect (readable : g.Readable id)
    (collection : (g.node id).tag.isCollection = true) (finds : Finds g root find (g.parts id))
    (sound : Sound g root known) :
    Sound g root (g.collect find known (g.node id)).known ∧
      (((g.node id).tag ≠ .map ∧ Depicts g root (g.collect find known (g.node id)).result id) ∨
        (g.node id).tag = .map ∧
          ∃ entries, (g.collect find known (g.node id)).result = .map entries ∧
            ∀ amended, DepictsEntries g root amended entries (g.pairs id)) := by
  cases readable with
  | scalar single => simp [single] at collection
  | items tag items content =>
    have other : (g.node id).tag ≠ .map := by simp [tag]
    rw [Graph.parts_of_items tag content] at finds
    simp only [Graph.collect, content, tag, ↓reduceIte]
    exact ⟨sound_of_gather finds sound, .inl ⟨by simp, collection, other⟩⟩
  | singles tag items content =>
    have other : (g.node id).tag ≠ .map := by rcases tag with tag | tag <;> simp [tag]
    have listed := Graph.ne_seq_of_singles tag
    rw [Graph.parts_of_singles tag content] at finds
    simp only [Graph.collect, content, listed, ↓reduceIte]
    exact ⟨(depictsEntries_of_gatherPairs False finds sound).2,
      .inl ⟨other, collection, other⟩⟩
  | dict tag pairs content =>
    -- A mapping may still be amended by what it merges, so its entries are left open.
    rw [Graph.parts_of_dict tag content] at finds
    rw [Graph.pairs_of_mapping content]
    simp only [Graph.collect, content]
    have soundAfter := (depictsEntries_of_gatherPairs False finds sound).2
    rcases tag with tag | tag
    · simp only [tag, reduceCtorEq, ↓reduceIte]
      exact ⟨soundAfter, .inr ⟨trivial, _, rfl,
        fun amended => (depictsEntries_of_gatherPairs amended finds sound).1⟩⟩
    · have other : (g.node id).tag ≠ .map := by simp [tag]
      simp only [tag, ↓reduceIte]
      exact ⟨soundAfter, .inl ⟨by simp, collection, other⟩⟩

/-- Only the outermost mapping has to be amended before it is depicted. -/
theorem depicts_of_collect_inside (inside : id ≠ root) (readable : g.Readable id)
    (collection : (g.node id).tag.isCollection = true) (finds : Finds g root find (g.parts id))
    (sound : Sound g root known) :
    Depicts g root (g.collect find known (g.node id)).result id ∧
      Sound g root (g.collect find known (g.node id)).known := by
  obtain ⟨soundAfter, ⟨_, depicts⟩ | ⟨tag, entries, result, entry⟩⟩ :=
    depicts_of_collect readable collection finds sound
  · exact ⟨depicts, soundAfter⟩
  · refine ⟨?_, soundAfter⟩
    rw [result]
    exact ⟨tag, fun outermost => absurd outermost inside, entry _⟩

end

variable {scalar : Nat → Value}

/-- Nodes within the outermost collection have values that depict them. The collections around a node
are all different, so that there are never more steps to take than nodes. -/
theorem depicts_valueIn (readable : ∀ id, g.Reached root id → g.Readable id)
    (scalars : ∀ id, g.Reached root id → (g.node id).tag.isCollection = false →
      g.scalarValue id = .ok (scalar id))
    {depth : Nat} {around : List Nat} {known : Known} (reached : g.Reached root id)
    (inside : root ∈ around) (nodup : around.Nodup)
    (collections : ∀ x ∈ around, (g.node x).tag.isCollection = true)
    (enough : g.nodes.size < depth + around.length) (sound : Sound g root known) :
    Depicts g root (g.valueIn scalar depth around known id).result id ∧
      Sound g root (g.valueIn scalar depth around known id).known := by
  -- Each step down puts one more collection around what is read.
  induction depth generalizing around known id with
  | zero =>
    have few := Graph.length_le_of_collections nodup collections
    omega
  | succ depth ih =>
    rw [Graph.valueIn]
    split
    · next again =>
      exact ⟨⟨rfl, collections id (by simpa using again)⟩, sound⟩
    · next fresh =>
      have absent : id ∉ around := by simpa using fresh
      split
      · next v found =>
        obtain ⟨before, after, split, _⟩ := List.lookup_eq_some_iff.mp found
        exact ⟨sound (id, v) (by simp [split]), sound⟩
      · split
        · next collection =>
          have finds : Finds g root (g.valueIn scalar depth (id :: around)) (g.parts id) := by
            intro part member known sound
            refine ih (.part reached member) (List.mem_cons_of_mem id inside)
              (List.nodup_cons.mpr ⟨absent, nodup⟩) ?_ ?_ sound
            · exact List.forall_mem_cons.mpr ⟨collection, collections⟩
            · simp only [List.length_cons]
              omega
          have within : id ≠ root := fun outermost => absent (outermost ▸ inside)
          obtain ⟨depicts, soundAfter⟩ :=
            depicts_of_collect_inside within (readable id reached) collection finds sound
          dsimp only
          split
          · exact ⟨depicts, List.forall_mem_cons.mpr ⟨depicts, soundAfter⟩⟩
          · exact ⟨⟨rfl, collection, depicts⟩, soundAfter⟩
        · next single =>
          exact ⟨depicts_of_scalarValue (scalars id reached (by simpa using single)), sound⟩

theorem depicts_value {v : Visit} {P : Nat → Prop} (visited : g.Visited root P v) :
    ((g.node root).tag ≠ .map ∧ Depicts g root (v.value root) root) ∨
      (g.node root).tag = .map ∧ ∃ entries,
        (v.value root = .map entries ∨ v.value root = .knot root (.map entries)) ∧
          ∀ amended, DepictsEntries g root amended entries (g.pairs root) := by
  rw [Visit.value, visited.graph, Graph.valueIn]
  simp only [List.contains_nil, Bool.false_eq_true, ↓reduceIte, List.lookup_nil]
  split
  · next collection =>
    have finds : Finds g root (g.valueIn v.scalar (g.nodes.size + 1) [root]) (g.parts root) :=
      fun part member known sound =>
        depicts_valueIn visited.readable visited.scalars (.part .root member) (by simp) (by simp)
          (by simpa using collection) (by rw [List.length_singleton]; omega) sound
    have fresh : Sound g root [] := by simp [Sound]
    obtain ⟨_, ⟨other, depicts⟩ | ⟨tag, entries, result, entry⟩⟩ :=
      depicts_of_collect (visited.readable root .root) collection finds fresh
    · refine .inl ⟨other, ?_⟩
      split
      · exact depicts
      · exact ⟨rfl, collection, depicts⟩
    · refine .inr ⟨tag, entries, ?_, entry⟩
      rw [result]
      split
      · exact .inl rfl
      · exact .inr rfl
  · next single =>
    have plain : (g.node root).tag.isCollection = false := by simpa using single
    refine .inl ⟨fun tag => by simp [tag, Tag.isCollection] at plain, ?_⟩
    exact depicts_of_scalarValue (visited.scalars root .root plain)

theorem eq_of_sameKey_text {k : Value} {name : String} (same : k.sameKey (.text name) = true) :
    k = .text name := by
  cases k with
  | text s =>
    have here : s = name := by simpa [Value.sameKey] using same
    rw [here]
  | bool b => cases b <;> simp [Value.sameKey, Value.integer?] at same
  | _ => simp [Value.sameKey, Value.integer?] at same

theorem mem_put_text {name : String} {v : Value} (entries : List (Value × Value)) :
    (Value.text name, v) ∈ Value.put (.text name) v entries := by
  induction entries with
  | nil => simp [Value.put]
  | cons e rest ih =>
    obtain ⟨k, w⟩ := e
    rw [Value.put]
    split
    · next same =>
      rw [eq_of_sameKey_text same]
      exact List.mem_cons_self
    · exact List.mem_cons_of_mem _ ih

theorem mem_put_of_other {name other : String} {v w : Value} {entries : List (Value × Value)}
    (different : other ≠ name) (member : (Value.text other, w) ∈ entries) :
    (Value.text other, w) ∈ Value.put (.text name) v entries := by
  induction entries with
  | nil => cases member
  | cons e rest ih =>
    obtain ⟨k, u⟩ := e
    rw [Value.put]
    rcases List.mem_cons.mp member with here | later
    · cases here
      simp [Value.sameKey, different]
    · split
      · exact List.mem_cons_of_mem _ later
      · exact List.mem_cons_of_mem _ (ih later)

theorem depictsEntries_put {amended : Prop} {name : String} {v : Value}
    {entries : List (Value × Value)} {pairs : List (Nat × Nat)} (open_ : amended)
    (key : IsAmended (.text name)) (depicts : DepictsEntries g root amended entries pairs) :
    DepictsEntries g root amended (Value.put (.text name) v entries) pairs := by
  induction entries generalizing pairs with
  | nil =>
    rw [show pairs = [] from depicts]
    exact ⟨⟨open_, key⟩, rfl⟩
  | cons e rest ih =>
    obtain ⟨k, w⟩ := e
    rw [Value.put]
    cases pairs with
    | nil =>
      split
      · exact depicts
      · exact ⟨depicts.1, ih depicts.2⟩
    | cons p pairs =>
      obtain ⟨first, second, further⟩ := depicts
      split
      · next same => exact ⟨first, .inr ⟨open_, eq_of_sameKey_text same ▸ key⟩, further⟩
      · exact ⟨first, second, ih further⟩

theorem depicts_of_depictsEntries {amended : Prop} {entries : List (Value × Value)}
    {pairs : List (Nat × Nat)} (closed : ¬ amended)
    (depicts : DepictsEntries g root amended entries pairs) :
    List.Forall₂ (fun e p => Depicts g root e.1 p.1 ∧ Depicts g root e.2 p.2) entries pairs := by
  induction entries generalizing pairs with
  | nil =>
    rw [show pairs = [] from depicts]
    exact .nil
  | cons e rest ih =>
    cases pairs with
    | nil => exact absurd depicts.1.1 closed
    | cons p pairs =>
      obtain ⟨first, second, further⟩ := depicts
      exact .cons ⟨first, second.resolve_right fun amended => closed amended.1⟩ (ih further)

def Graph.fieldOf? (g : Graph) (name : String) : List (Nat × Nat) → Option Nat
  | [] => none
  | (key, value) :: rest =>
    match g.scalarValue key with
    | .ok (.text k) => if k = name then some value else g.fieldOf? name rest
    | _ => g.fieldOf? name rest

def Graph.field? (g : Graph) (id : Nat) (name : String) : Option Nat :=
  g.fieldOf? name (g.pairs id)

theorem find?_cons_self (name : String) (v : Value) (rest : List (Value × Value)) :
    Value.find? name ((.text name, v) :: rest) = some v := by
  simp [Value.find?]

theorem find?_cons_of_ne {name : String} {k : Value} (different : k ≠ .text name) (v : Value)
    (rest : List (Value × Value)) : Value.find? name ((k, v) :: rest) = Value.find? name rest := by
  cases k with
  | text s =>
    have apart : s ≠ name := fun same => different (same ▸ rfl)
    simp [Value.find?, apart]
  | _ => rfl

theorem fieldOf?_cons_self {name : String} {key : Nat}
    (read : g.scalarValue key = .ok (.text name)) (value : Nat) (rest : List (Nat × Nat)) :
    g.fieldOf? name ((key, value) :: rest) = some value := by
  simp [Graph.fieldOf?, read]

theorem fieldOf?_cons_of_ne {name : String} {key : Nat}
    (different : g.scalarValue key ≠ .ok (.text name)) (value : Nat) (rest : List (Nat × Nat)) :
    g.fieldOf? name ((key, value) :: rest) = g.fieldOf? name rest := by
  rw [Graph.fieldOf?]
  split
  · next k read =>
    have apart : k ≠ name := fun same => different (same ▸ read)
    rw [if_neg apart]
  · rfl

theorem find?_depicts {amended : Prop} {name : String} (other : ¬ IsAmended (.text name))
    {entries : List (Value × Value)} {pairs : List (Nat × Nat)}
    (depicts : DepictsEntries g root amended entries pairs) :
    Option.Rel (Depicts g root) (Value.find? name entries) (g.fieldOf? name pairs) := by
  -- Entries that have no pair are amended, so the search passes over them.
  induction entries generalizing pairs with
  | nil =>
    rw [show pairs = [] from depicts]
    exact .none
  | cons e rest ih =>
    obtain ⟨k, v⟩ := e
    cases pairs with
    | nil =>
      obtain ⟨⟨_, key⟩, further⟩ := depicts
      have different : k ≠ .text name := fun same => other (same ▸ key)
      rw [find?_cons_of_ne different]
      exact ih further
    | cons p pairs =>
      obtain ⟨key, value⟩ := p
      obtain ⟨first, second, further⟩ := depicts
      by_cases same : k = .text name
      · subst same
        have depicts := second.resolve_right fun amended => other amended.2
        rw [find?_cons_self, fieldOf?_cons_self first.2]
        exact .some depicts
      · have different : g.scalarValue key ≠ .ok (.text name) := fun read =>
          same (eq_of_depicts first read)
        rw [find?_cons_of_ne same, fieldOf?_cons_of_ne different]
        exact ih further

end PluginCompiler.Yaml
