import Mathlib.Data.List.Induction
import PluginCompiler.Proofs.FileTree.Path

/-! What a look-up answers. It finds what stands at the place of a path if the way there can be
taken, finds nothing if it cannot, and has no answer only at a name that is too long for the
directory that it has come to. -/

set_option autoImplicit false

namespace PluginCompiler

open Place FileTree

namespace FileTree

variable {t : FileTree} {at_ : Place} {names : List String}

/-- Whatever stands somewhere stands in a directory. -/
def Rooted (t : FileTree) : Prop :=
  ∀ place name, t.find? (place ++ [name]) ≠ none → t.find? place = some .directory

theorem rooted_of_entries
    (inside : ∀ e ∈ t.entries, t.find? e.1.dropLast = some .directory) : t.Rooted := by
  intro place name stands
  have filled : place ++ [name] ≠ [] := by simp
  rw [find?, if_neg filled] at stands
  obtain ⟨entry, found⟩ := Option.ne_none_iff_exists'.mp stands
  obtain ⟨front, rest, split, _⟩ := List.lookup_eq_some_iff.mp found
  have above := inside (place ++ [name], entry) (by simp [split])
  rwa [List.dropLast_concat] at above

theorem Rooted.passable (rooted : t.Rooted) (stands : t.find? (at_ ++ names) ≠ none)
    (down : ".." ∉ names) (fits : ∀ name ∈ names, name.utf8ByteSize ≤ longestName) :
    t.Passable at_ names := by
  induction names using List.reverseRecOn with
  | nil => trivial
  | append_singleton up last ih =>
    rw [← List.append_assoc] at stands
    have above := rooted _ _ stands
    have downUp : ".." ∉ up := fun member => down (List.mem_append_left _ member)
    rw [passable_concat, walk_down downUp]
    refine ⟨ih (by simp [above]) downUp fun name member => fits name (List.mem_append_left _ member),
      above, .inr (fits last (by simp))⟩

/-- A walk comes to a directory that cannot hold the next name. -/
def Overlong (t : FileTree) (at_ : Place) (names : List String) : Prop :=
  ∃ front name rest, names = front ++ name :: rest ∧ t.Passable at_ front ∧
    t.find? (walk at_ front) = some .directory ∧ name ≠ ".." ∧ longestName < name.utf8ByteSize

theorem overlong_cons {name : String} {rest : List String} :
    t.Overlong at_ (name :: rest) ↔ t.find? at_ = some .directory ∧ (
      name ≠ ".." ∧ longestName < name.utf8ByteSize ∨
      (name = ".." ∨ name.utf8ByteSize ≤ longestName) ∧ t.Overlong (step at_ name) rest) := by
  constructor
  · rintro ⟨front, long, rest', split, passable, here, down, size⟩
    cases front with
    | nil =>
      cases split
      exact ⟨here, .inl ⟨down, size⟩⟩
    | cons head front =>
      cases split
      obtain ⟨start, fits, further⟩ := passable
      exact ⟨start, .inr ⟨fits, front, long, rest', rfl, further, here, down, size⟩⟩
  · rintro ⟨start, ⟨down, size⟩ | ⟨fits, front, long, rest', rfl, further, here, down, size⟩⟩
    · exact ⟨[], name, rest, rfl, trivial, start, down, size⟩
    · exact ⟨name :: front, long, rest', rfl, ⟨start, fits, further⟩, here, down, size⟩

theorem resolve_eq_nameTooLong :
    t.resolve at_ names = .error .nameTooLong ↔ t.Overlong at_ names := by
  induction names generalizing at_ with
  | nil => simp [resolve, Overlong]
  | cons name rest ih =>
    rw [overlong_cons, resolve]
    cases here : t.find? at_ with
    | none => simp
    | some entry =>
      cases entry with
      | file content => simp
      | directory =>
        by_cases up : name = ".."
        · simp [up, ih, step]
        · by_cases long : longestName < name.utf8ByteSize
          · simp [up, long]
          · simp [up, long, ih, step, Nat.le_of_not_lt long]

theorem status_eq_nameTooLong :
    t.status at_ names = .error .nameTooLong ↔ t.Overlong at_ names := by
  rw [status, ← resolve_eq_nameTooLong]
  cases t.resolve at_ names with
  | error fault => simp
  | ok place => cases found : t.find? place <;> simp [found]

theorem Overlong.not_passable {t' : FileTree} (overlong : t.Overlong at_ names) :
    ¬ t'.Passable at_ names := by
  obtain ⟨front, long, rest, rfl, _, _, down, size⟩ := overlong
  rw [passable_append]
  rintro ⟨_, _, fits, _⟩
  exact Nat.not_le_of_gt size (fits.resolve_left down)

end FileTree

namespace Path

variable {p : Path} {cwd : Place} {t t' : FileTree}

/-- A path is too long, or it leads to a directory that cannot hold its next name. -/
def Overlong (p : Path) (cwd : Place) (t : FileTree) : Prop :=
  p.hasNul = false ∧ (p.isLong = true ∨ t.Overlong (p.start cwd) p.parts)

theorem status_eq_nameTooLong :
    p.status cwd t = .error .nameTooLong ↔ p.isLong = true ∨ t.Overlong (p.start cwd) p.parts := by
  rw [status, ← FileTree.status_eq_nameTooLong]
  cases p.isLong <;> simp

theorem exists?_eq_error {defect : Defect} :
    p.exists? cwd t = .error defect ↔
      p.Overlong cwd t ∧ defect = .system .nameTooLong p.toString := by
  rw [exists?, Overlong, ← status_eq_nameTooLong]
  cases p.hasNul with
  | true => simp
  | false =>
    cases p.status cwd t with
    | ok entry => simp
    | error fault => cases fault <;> simp [eq_comm]

theorem Overlong.not_passable (overlong : p.Overlong cwd t) : ¬ p.Passable cwd t' := by
  rintro ⟨short, passable⟩
  rcases overlong.2 with long | overlong
  · simp [long] at short
  · exact overlong.not_passable passable

end Path

end PluginCompiler
