import PluginCompiler.Proofs.Null.Role
import PluginCompiler.Proofs.Yaml.Outline

/-! Data in which null sections have become empty ones. What changes is a section's value and nothing
else, also inside a knot that is tied again. -/

set_option autoImplicit false

namespace PluginCompiler

namespace Value

def name? : Value → Option String
  | text s => some s
  | _ => none

mutual
/-- A value that is read in a role, and the same value with empty collections for some of its null
sections. `roles` says what the knots around are read as, in all the places that refer to them. -/
def Emptied (roles : Nat → Role → Prop) : Role → Value → Value → Prop
  | r, null, w => w = null ∨ ∃ hollow, r.hollow? = some hollow ∧ w = hollow.value
  | r, list items, w => ∃ items', w = list items' ∧ EmptiedAll roles r.item items items'
  | _, tuple items, w => ∃ items', w = tuple items' ∧ EmptiedAll roles .other items items'
  | _, set items, w => ∃ items', w = set items' ∧ EmptiedAll roles .other items items'
  | r, map entries, w => ∃ entries', w = map entries' ∧ EmptiedEntries roles r entries entries'
  | r, knot label body, w =>
    ∃ body', w = knot label body' ∧ Yaml.IsSingle body = false ∧ roles label r ∧
      ∀ r, roles label r → Emptied roles r body body'
  | r, again label, w => w = again label ∧ roles label r
  | _, v, w => w = v

def EmptiedAll (roles : Nat → Role → Prop) (r : Role) : List Value → List Value → Prop
  | [], ws => ws = []
  | v :: vs, ws => ∃ w rest, ws = w :: rest ∧ Emptied roles r v w ∧ EmptiedAll roles r vs rest

def EmptiedEntries (roles : Nat → Role → Prop) (r : Role) :
    List (Value × Value) → List (Value × Value) → Prop
  | [], ws => ws = []
  | (k, v) :: rest, ws =>
    ∃ w rest', ws = (k, w) :: rest' ∧ Yaml.IsSingle k = true ∧ Emptied roles (r.entry k.name?) v w ∧
      EmptiedEntries roles r rest rest'
end

variable {roles : Nat → Role → Prop} {r : Role} {label : Nat} {tied tied' v w : Value}

theorem emptied_of_single (single : Yaml.IsSingle v = true) : Emptied roles r v v := by
  cases v with
  | null => exact .inl rfl
  | list | tuple | set | map | knot | again => cases single
  | _ => rfl

mutual
theorem eq_of_emptied : (v w : Value) → Emptied roles .other v w → w = v
  | .null, w, emptied => by
    rcases emptied with same | ⟨hollow, none, _⟩
    · exact same
    · cases none
  | .list items, w, emptied | .tuple items, w, emptied | .set items, w, emptied => by
    obtain ⟨items', rfl, inside⟩ := emptied
    rw [eq_of_emptiedAll items items' inside]
  | .map entries, w, emptied => by
    obtain ⟨entries', rfl, inside⟩ := emptied
    rw [eq_of_emptiedEntries entries entries' inside]
  | .knot label body, w, emptied => by
    obtain ⟨body', rfl, _, known, inside⟩ := emptied
    rw [eq_of_emptied body body' (inside .other known)]
  | .again label, w, emptied => emptied.1
  | .bool _, _, emptied | .int _, _, emptied | .float _, _, emptied | .text _, _, emptied
  | .bytes _, _, emptied | .date _, _, emptied | .moment _, _, emptied => emptied

theorem eq_of_emptiedAll : (vs ws : List Value) → EmptiedAll roles .other vs ws → ws = vs
  | [], _, emptied => emptied
  | v :: vs, ws, emptied => by
    obtain ⟨w, rest, rfl, first, further⟩ := emptied
    rw [eq_of_emptied v w first, eq_of_emptiedAll vs rest further]

theorem eq_of_emptiedEntries : (entries entries' : List (Value × Value)) →
    EmptiedEntries roles .other entries entries' → entries' = entries
  | [], _, emptied => emptied
  | (k, v) :: rest, ws, emptied => by
    obtain ⟨w, rest', rfl, _, first, further⟩ := emptied
    rw [Role.entry_other] at first
    rw [eq_of_emptied v w first, eq_of_emptiedEntries rest rest' further]
end

theorem replace_of_single (single : Yaml.IsSingle v = true) : replace label tied v = v := by
  cases v with
  | list | tuple | set | map | knot | again => cases single
  | _ => simp only [replace]

theorem isSingle_replace (whole : Yaml.IsSingle tied = false) (other : Yaml.IsSingle v = false) :
    Yaml.IsSingle (replace label tied v) = false := by
  cases v with
  | again l =>
    rw [replace]
    split
    · exact whole
    · rfl
  | list | tuple | set | map | knot =>
    rw [replace]
    rfl
  | _ => cases other

theorem replace_hollow (hollow : Hollow) : replace label tied hollow.value = hollow.value := by
  cases hollow <;> simp only [Hollow.value, replace, replaceAll, replaceEntries]

mutual
theorem emptied_replace (whole : Yaml.IsSingle tied = false)
    (knot : ∀ r, roles label r → Emptied roles r tied tied') :
    (v w : Value) → (r : Role) → Emptied roles r v w →
      Emptied roles r (replace label tied v) (replace label tied' w)
  | .null, w, r, emptied => by
    rw [replace_of_single rfl]
    rcases emptied with rfl | ⟨hollow, known, rfl⟩
    · exact .inl (replace_of_single rfl)
    · exact .inr ⟨hollow, known, replace_hollow hollow⟩
  | .list items, w, r, emptied => by
    obtain ⟨items', rfl, inside⟩ := emptied
    rw [replace, replace]
    exact ⟨_, rfl, emptiedAll_replace whole knot items items' r.item inside⟩
  | .tuple items, w, r, emptied | .set items, w, r, emptied => by
    obtain ⟨items', rfl, inside⟩ := emptied
    rw [replace, replace]
    exact ⟨_, rfl, emptiedAll_replace whole knot items items' .other inside⟩
  | .map entries, w, r, emptied => by
    obtain ⟨entries', rfl, inside⟩ := emptied
    rw [replace, replace]
    exact ⟨_, rfl, emptiedEntries_replace whole knot entries entries' r inside⟩
  | .knot l body, w, r, emptied => by
    obtain ⟨body', rfl, other, known, inside⟩ := emptied
    rw [replace, replace]
    exact ⟨_, rfl, isSingle_replace whole other, known,
      fun r known => emptied_replace whole knot body body' r (inside r known)⟩
  | .again l, w, r, emptied => by
    obtain ⟨rfl, known⟩ := emptied
    rw [replace, replace]
    split
    · next same => exact knot r (same ▸ known)
    · exact ⟨rfl, known⟩
  | .bool _, _, _, rfl | .int _, _, _, rfl | .float _, _, _, rfl | .text _, _, _, rfl
  | .bytes _, _, _, rfl | .date _, _, _, rfl | .moment _, _, _, rfl => by
    simp only [replace]
    exact emptied_of_single rfl

theorem emptiedAll_replace (whole : Yaml.IsSingle tied = false)
    (knot : ∀ r, roles label r → Emptied roles r tied tied') :
    (vs ws : List Value) → (r : Role) → EmptiedAll roles r vs ws →
      EmptiedAll roles r (replaceAll label tied vs) (replaceAll label tied' ws)
  | [], _, _, emptied => by
    rw [show _ = [] from emptied, replaceAll, replaceAll]
    rfl
  | v :: vs, ws, r, emptied => by
    obtain ⟨w, rest, rfl, first, further⟩ := emptied
    rw [replaceAll, replaceAll]
    exact ⟨_, _, rfl, emptied_replace whole knot v w r first,
      emptiedAll_replace whole knot vs rest r further⟩

theorem emptiedEntries_replace (whole : Yaml.IsSingle tied = false)
    (knot : ∀ r, roles label r → Emptied roles r tied tied') :
    (entries entries' : List (Value × Value)) → (r : Role) → EmptiedEntries roles r entries entries' →
      EmptiedEntries roles r (replaceEntries label tied entries) (replaceEntries label tied' entries')
  | [], _, _, emptied => by
    rw [show _ = [] from emptied, replaceEntries, replaceEntries]
    rfl
  | (k, v) :: rest, ws, r, emptied => by
    obtain ⟨w, rest', rfl, key, first, further⟩ := emptied
    rw [replaceEntries, replaceEntries, replace_of_single key, replace_of_single key]
    exact ⟨_, _, rfl, key, emptied_replace whole knot v w _ first,
      emptiedEntries_replace whole knot rest rest' r further⟩
end

/-- To look into a knot ties it again on both sides. -/
theorem emptied_opened (emptied : Emptied roles r v w) : Emptied roles r v.opened w.opened := by
  cases v with
  | knot l body =>
    obtain ⟨body', rfl, other, known, inside⟩ := emptied
    have whole (r : Role) (known : roles l r) : Emptied roles r (knot l body) (knot l body') :=
      ⟨body', rfl, other, known, inside⟩
    exact emptied_replace rfl whole body body' r (inside r known)
  | null =>
    rcases emptied with rfl | ⟨hollow, known, rfl⟩
    · exact .inl rfl
    · exact .inr ⟨hollow, known, by cases hollow <;> rfl⟩
  | list | tuple | set | map =>
    obtain ⟨inner, rfl, inside⟩ := emptied
    exact ⟨inner, rfl, inside⟩
  | again l =>
    obtain ⟨rfl, known⟩ := emptied
    exact ⟨rfl, known⟩
  | _ =>
    cases emptied
    exact emptied_of_single rfl

theorem eq_null_of_opened (emptied : Emptied roles r v w) (null : v.opened = .null) : v = .null := by
  cases v with
  | knot l body =>
    obtain ⟨body', _, other, _⟩ := emptied
    have still : Yaml.IsSingle (replace l (knot l body) body) = false := isSingle_replace rfl other
    rw [show replace l (knot l body) body = .null from null] at still
    cases still
  | _ => exact null

theorem opened_eq_null (emptied : Emptied roles r v w) (filled : v ≠ null ∨ r.hollow? = none)
    (null : v.opened = .null) : w.opened = .null := by
  have fixed := filled.resolve_left fun present => present (eq_null_of_opened emptied null)
  have opened := emptied_opened emptied
  rw [null] at opened
  rcases opened with same | ⟨hollow, known, _⟩
  · exact same
  · rw [fixed] at known
    cases known

theorem ne_null_of_emptied (emptied : Emptied roles r v w) (present : v ≠ null) : w ≠ null := by
  cases v with
  | null => exact absurd rfl present
  | list | tuple | set | map | knot =>
    obtain ⟨inner, rfl, _⟩ := emptied
    nofun
  | again =>
    rw [emptied.1]
    nofun
  | _ =>
    rw [show w = _ from emptied]
    nofun

theorem map_of_emptied (emptied : Emptied roles r v w) (filled : v ≠ null ∨ r.hollow? = none) :
    (∃ entries entries', v.opened = map entries ∧ w.opened = map entries' ∧
        EmptiedEntries roles r entries entries') ∨
      (∀ entries, v.opened ≠ map entries) ∧ ∀ entries, w.opened ≠ map entries := by
  have opened := emptied_opened emptied
  cases look : v.opened with
  | map entries =>
    rw [look] at opened
    obtain ⟨entries', same, inside⟩ := opened
    exact .inl ⟨entries, entries', rfl, same, inside⟩
  | null => exact .inr ⟨nofun, fun _ => by rw [opened_eq_null emptied filled look]; nofun⟩
  | list | tuple | set | knot =>
    rw [look] at opened
    obtain ⟨inner, same, _⟩ := opened
    exact .inr ⟨nofun, fun _ => by rw [same]; nofun⟩
  | again =>
    rw [look] at opened
    exact .inr ⟨nofun, fun _ => by rw [opened.1]; nofun⟩
  | _ =>
    rw [look] at opened
    exact .inr ⟨nofun, fun _ => by rw [show w.opened = _ from opened]; nofun⟩

end Value

end PluginCompiler
