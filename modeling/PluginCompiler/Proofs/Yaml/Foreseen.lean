import PluginCompiler.Proofs.Yaml.Loading

/-! Faults that a document is refused for, and faults that nobody expects. The latter come from a number
that no character has, from texts whose tag computes a value, and from the tag of a mapping on what is
none. -/

set_option autoImplicit false

namespace PluginCompiler.Yaml

def Fault.IsForeseen : Fault → Prop
  | .malformed | .duplicateKey _ _ => True
  | .noSuchCharacter _ | .value _ => False

variable {source : List Char} {fault : Fault}

theorem ofValue_eq_value {fault other : ValueFault} :
    Fault.ofValue fault = .value other ↔ fault = other ∧ other ≠ .malformed := by
  constructor
  · intro same
    cases fault <;> cases same <;> exact ⟨rfl, nofun⟩
  · rintro ⟨rfl, known⟩
    cases fault with
    | malformed => exact absurd rfl known
    | _ => rfl

namespace Graph

variable {g : Graph} {id : Nat} {fault : ValueFault}

/-- A fault of a node that is not foreseen: its tag computes a value that its text does not have, or is
that of a mapping on something else. -/
inductive UnforeseenAt (g : Graph) (id : Nat) : ValueFault → Prop where
  | scalar {fault : ValueFault} (typed : (g.node id).tag ∈ [Tag.int, .float, .bool, .timestamp])
      (read : g.scalarValue id = .error fault) (other : fault ≠ .malformed) : UnforeseenAt g id fault
  | item {item : Nat} {items : List Nat} (dict : g.IsDict id)
      (content : (g.node id).content = .sequence (item :: items)) :
      UnforeseenAt g id (.pairOfNode (g.kindName item))
  | text {text : String} (dict : g.IsDict id) (content : (g.node id).content = .scalar text)
      (filled : text ≠ "") : UnforeseenAt g id .pairOfText

theorem textOf_eq_error {fuel : Nat} (failed : g.textOf fuel id = .error fault) : fault = .malformed := by
  induction fuel generalizing id with
  | zero =>
    cases failed
    rfl
  | succ fuel ih =>
    rw [textOf] at failed
    split at failed
    · cases failed
    · cases failed
      rfl
    · split at failed
      · exact ih failed
      · cases failed
        rfl

theorem binaryOfText_eq_error {text : String} (failed : binaryOfText text = .error fault) :
    fault = .malformed := by
  rw [binaryOfText] at failed
  split at failed
  · split at failed
    · cases failed
    · cases failed
      rfl
  · cases failed
    rfl

theorem typed_of_read {tag : Tag} {text : String} (failed : tag.read text = .error fault)
    (other : fault ≠ .malformed) : tag ∈ [Tag.int, .float, .bool, .timestamp] := by
  cases tag with
  | int | float | bool | timestamp => decide
  | str | null => cases failed
  | binary => exact absurd (binaryOfText_eq_error (map_eq_error failed)) other
  | _ =>
    cases failed
    exact absurd rfl other

theorem typed_of_scalarValue (failed : g.scalarValue id = .error fault) (other : fault ≠ .malformed) :
    (g.node id).tag ∈ [Tag.int, .float, .bool, .timestamp] := by
  simp only [scalarValue] at failed
  split at failed
  · cases failed
    exact absurd rfl other
  · rcases bind_eq_error failed with unread | ⟨text, _, failed⟩
    · exact absurd (textOf_eq_error unread) other
    · split at failed
      · next tag _ =>
        rw [tag]
        decide
      · exact typed_of_read failed other

theorem faultAt_value_iff : g.FaultAt id (.value fault) ↔ g.UnforeseenAt id fault := by
  constructor
  · intro at_
    generalize same : Fault.value fault = whole at at_
    cases at_ with
    | scalar _ read =>
      obtain ⟨rfl, other⟩ := ofValue_eq_value.mp same.symm
      exact .scalar (typed_of_scalarValue read other) read other
    | item dict content =>
      cases same
      exact .item dict content
    | text dict content filled =>
      cases same
      exact .text dict content filled
    | misfit | repeated => cases same
  · intro at_
    cases at_ with
    | scalar typed read other =>
      have single : (g.node id).tag.isCollection = false := by
        simp only [List.mem_cons, List.not_mem_nil, or_false] at typed
        rcases typed with tag | tag | tag | tag <;> rw [tag] <;> rfl
      rw [← ofValue_eq_value.mpr ⟨rfl, other⟩]
      exact .scalar single read
    | item dict content => exact .item dict content
    | text dict content filled => exact .text dict content filled

end Graph

inductive HasUnforeseen (source : List Char) : Prop where
  | character {number : Nat} (stopped : Graph.ofText source = .error (.noSuchCharacter number))
  | node {g : Graph} {root id : Nat} {fault : ValueFault} (composed : Graph.ofText source = .ok g)
      (rooted : g.root = some root) (reached : g.Reached root id) (at_ : g.UnforeseenAt id fault)

theorem hasUnforeseen_iff :
    HasUnforeseen source ↔ ∃ fault, HasFault source fault ∧ ¬ fault.IsForeseen := by
  constructor
  · rintro (stopped | ⟨composed, rooted, reached, at_⟩)
    · exact ⟨_, .text stopped, id⟩
    · exact ⟨_, .node composed rooted ⟨_, reached, Graph.faultAt_value_iff.mpr at_⟩, id⟩
  · rintro ⟨fault, has, unforeseen⟩
    cases has with
    | @text stop stopped =>
      cases stop with
      | malformed => exact absurd trivial unforeseen
      | noSuchCharacter number => exact .character stopped
    | @node g root fault composed rooted faulty =>
      obtain ⟨id, reached, at_⟩ := faulty
      cases fault with
      | malformed | duplicateKey => exact absurd trivial unforeseen
      | value fault => exact .node composed rooted reached (Graph.faultAt_value_iff.mp at_)
      | noSuchCharacter number =>
        generalize same : Fault.noSuchCharacter number = whole at at_
        cases at_ with
        | @scalar fault => cases fault <;> cases same
        | _ => cases same

theorem not_hasFault_of_load {value : Value} (ended : load source = .ok value) :
    ¬ HasFault source fault := by
  intro has
  cases has with
  | text stopped =>
    rw [load, loadBy_of_stop stopped] at ended
    cases ended
  | node composed rooted faulty =>
    rw [load, loadBy_of_root composed rooted] at ended
    obtain ⟨v, visit, _⟩ := bind_eq_ok ended
    obtain ⟨id, reached, at_⟩ := faulty
    have visited := Graph.visited_of_visit (fun _ _ dict => Graph.reads_distinctly dict) visit
    obtain ⟨dict, key, mark, first⟩ := at_.repeats (visited.readable id reached)
    exact Graph.not_firstRepeat_of_apart (visited.dicts id reached dict).1 first

theorem hasUnforeseen_of_load (ended : load source = .error fault) (unforeseen : ¬ fault.IsForeseen) :
    HasUnforeseen source :=
  hasUnforeseen_iff.mpr ⟨fault, hasFault_of_load ended, unforeseen⟩

/-- A document is refused if every fault that it has is foreseen, and not if none is. With faults of both
kinds the first that is met decides. -/
theorem load_of_unforeseen (unforeseen : HasUnforeseen source)
    (only : ∀ fault, HasFault source fault → ¬ fault.IsForeseen) :
    ∃ fault, load source = .error fault ∧ ¬ fault.IsForeseen := by
  cases ended : load source with
  | ok value =>
    obtain ⟨fault, has, _⟩ := hasUnforeseen_iff.mp unforeseen
    exact absurd has (not_hasFault_of_load ended)
  | error fault => exact ⟨fault, rfl, only fault (hasFault_of_load ended)⟩

end PluginCompiler.Yaml
