import PluginCompiler.FileTree

/-! Where names lead. The place at the end of a walk depends on the names alone; the tree decides
only whether every step can be taken, and so whether a path is resolved to that place. -/

set_option autoImplicit false

namespace PluginCompiler

namespace Place

def step (at_ : Place) (name : String) : Place :=
  if name = ".." then at_.dropLast else at_ ++ [name]

def walk (at_ : Place) (names : List String) : Place := names.foldl step at_

def trail : Place → List String → List Place
  | _, [] => []
  | at_, name :: rest => step at_ name :: trail (step at_ name) rest

@[simp] theorem walk_nil (at_ : Place) : walk at_ [] = at_ := rfl

@[simp] theorem walk_cons (at_ : Place) (name : String) (rest : List String) :
    walk at_ (name :: rest) = walk (step at_ name) rest := rfl

@[simp] theorem walk_append (at_ : Place) (first rest : List String) :
    walk at_ (first ++ rest) = walk (walk at_ first) rest :=
  List.foldl_append

theorem step_name {name : String} (down : name ≠ "..") (at_ : Place) :
    step at_ name = at_ ++ [name] := if_neg down

theorem walk_down {names : List String} (down : ".." ∉ names) (at_ : Place) :
    walk at_ names = at_ ++ names := by
  induction names generalizing at_ with
  | nil => simp
  | cons name rest ih =>
    rw [List.mem_cons, not_or] at down
    rw [walk_cons, step_name (Ne.symm down.1), ih down.2, List.append_assoc, List.singleton_append]

theorem trail_append (at_ : Place) (first rest : List String) :
    trail at_ (first ++ rest) = trail at_ first ++ trail (walk at_ first) rest := by
  induction first generalizing at_ with
  | nil => rfl
  | cons name first ih => simp only [List.cons_append, trail, ih, walk_cons]

theorem trail_concat (at_ : Place) (first : List String) (last : String) :
    trail at_ (first ++ [last]) = trail at_ first ++ [walk at_ (first ++ [last])] := by
  rw [trail_append, walk_append]
  rfl

/-- Without steps upwards a walk comes only to places between its ends. -/
theorem mem_trail_down {names : List String} {at_ x : Place} (down : ".." ∉ names)
    (member : x ∈ trail at_ names) : ∃ front, front ≠ [] ∧ front <+: names ∧ x = at_ ++ front := by
  induction names generalizing at_ with
  | nil => simp [trail] at member
  | cons name rest ih =>
    rw [List.mem_cons, not_or] at down
    rw [trail, step_name (Ne.symm down.1), List.mem_cons] at member
    rcases member with rfl | member
    · exact ⟨[name], by simp, by simp, rfl⟩
    · obtain ⟨front, _, inside, rfl⟩ := ih down.2 member
      refine ⟨name :: front, by simp, ?_, by simp⟩
      rw [List.cons_prefix_cons]
      exact ⟨rfl, inside⟩

end Place

open Place

namespace FileTree

variable {t t' : FileTree} {at_ place : Place} {names first rest : List String}

/-- Every step of a walk can be taken: it starts from a directory and its name is not too long. -/
def Passable (t : FileTree) : Place → List String → Prop
  | _, [] => True
  | at_, name :: rest =>
    t.find? at_ = some .directory ∧ (name = ".." ∨ name.utf8ByteSize ≤ longestName) ∧
      t.Passable (step at_ name) rest

theorem passable_append :
    t.Passable at_ (first ++ rest) ↔ t.Passable at_ first ∧ t.Passable (walk at_ first) rest := by
  induction first generalizing at_ with
  | nil => simp [Passable]
  | cons name first ih => simp only [List.cons_append, Passable, ih, walk_cons, and_assoc]

theorem passable_concat {name : String} :
    t.Passable at_ (first ++ [name]) ↔
      t.Passable at_ first ∧ t.find? (walk at_ first) = some .directory ∧
        (name = ".." ∨ name.utf8ByteSize ≤ longestName) := by
  simp [passable_append, Passable]

theorem Passable.directory {name : String} {x : Place} (passable : t.Passable at_ (first ++ [name]))
    (member : x ∈ trail at_ first) : t.find? x = some .directory := by
  induction first generalizing at_ with
  | nil => simp [trail] at member
  | cons head first ih =>
    obtain ⟨_, _, further⟩ := passable
    rw [trail, List.mem_cons] at member
    rcases member with rfl | member
    · cases first with
      | nil => exact further.1
      | cons next first => exact further.1
    · exact ih further member

theorem Passable.mono
    (stay : ∀ x, t.find? x = some .directory → t'.find? x = some .directory)
    (passable : t.Passable at_ names) : t'.Passable at_ names := by
  induction names generalizing at_ with
  | nil => trivial
  | cons name rest ih =>
    obtain ⟨here, fits, further⟩ := passable
    exact ⟨stay _ here, fits, ih further⟩

theorem resolve_eq_ok :
    t.resolve at_ names = .ok place ↔ t.Passable at_ names ∧ place = walk at_ names := by
  induction names generalizing at_ with
  | nil => simp [resolve, Passable, eq_comm]
  | cons name rest ih =>
    rw [resolve]
    cases here : t.find? at_ with
    | none => simp [Passable, here]
    | some entry =>
      cases entry with
      | file content => simp [Passable, here]
      | directory =>
        by_cases up : name = ".."
        · simp [Passable, here, up, ih, step]
        · by_cases long : longestName < name.utf8ByteSize
          · have unfit : ¬ name.utf8ByteSize ≤ longestName := Nat.not_le_of_gt long
            simp [Passable, here, up, long, unfit]
          · simp [Passable, here, up, long, ih, step, Nat.le_of_not_lt long]

theorem resolve_of_passable (passable : t.Passable at_ names) :
    t.resolve at_ names = .ok (walk at_ names) :=
  resolve_eq_ok.mpr ⟨passable, rfl⟩

theorem not_passable_of_resolve {fault : SystemFault}
    (failed : t.resolve at_ names = .error fault) : ¬ t.Passable at_ names := by
  intro passable
  rw [resolve_of_passable passable] at failed
  cases failed

theorem status_eq_ok {entry : Entry} :
    t.status at_ names = .ok entry ↔
      t.Passable at_ names ∧ t.find? (walk at_ names) = some entry := by
  rw [status]
  cases resolved : t.resolve at_ names with
  | error fault => simp [not_passable_of_resolve resolved]
  | ok place =>
    obtain ⟨passable, rfl⟩ := resolve_eq_ok.mp resolved
    cases found : t.find? (walk at_ names) <;> simp [found, passable]

theorem isDirectory_iff :
    t.isDirectory at_ names = true ↔
      t.Passable at_ names ∧ t.find? (walk at_ names) = some .directory := by
  rw [← status_eq_ok, isDirectory]
  split
  · next same => simp [same]
  · next other => simpa using other

theorem makeDir_eq_ok :
    t.makeDir at_ names = .ok t' ↔
      t.Passable at_ names ∧ t.find? (walk at_ names) = none ∧
        t' = t.put (walk at_ names) .directory := by
  rw [makeDir]
  cases resolved : t.resolve at_ names with
  | error fault => simp [not_passable_of_resolve resolved]
  | ok place =>
    obtain ⟨passable, rfl⟩ := resolve_eq_ok.mp resolved
    cases found : t.find? (walk at_ names) <;> simp [found, passable, eq_comm]

theorem write_eq_ok {content : List UInt8} :
    t.write at_ names content = .ok t' ↔
      t.Passable at_ names ∧ t.find? (walk at_ names) ≠ some .directory ∧
        t' = t.put (walk at_ names) (.file content) := by
  rw [write]
  cases resolved : t.resolve at_ names with
  | error fault => simp [not_passable_of_resolve resolved]
  | ok place =>
    obtain ⟨passable, rfl⟩ := resolve_eq_ok.mp resolved
    cases found : t.find? (walk at_ names) with
    | none => simp [found, passable, eq_comm]
    | some entry => cases entry <;> simp [found, passable, eq_comm]

end FileTree

end PluginCompiler
