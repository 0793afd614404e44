import PluginCompiler.Proofs.FileTree.Walk

/-! What making directories and writing files leaves at each place. Directories stay where they are,
and a change elsewhere than at a written file can only be a directory where nothing was. -/

set_option autoImplicit false

namespace PluginCompiler

open Place

namespace FileTree

variable {t t' t'' : FileTree} {at_ x : Place} {names : List String}

/-- A tree that another one became: directories stayed, and only `written` places hold anything else
than before, new directories apart. -/
structure Grows (written : Place → Prop) (t t' : FileTree) : Prop where
  directories : ∀ x, t.find? x = some .directory → t'.find? x = some .directory
  elsewhere : ∀ x, ¬ written x →
    t'.find? x = t.find? x ∨ t.find? x = none ∧ t'.find? x = some .directory

namespace Grows

variable {written more : Place → Prop}

theorem refl (written : Place → Prop) (t : FileTree) : Grows written t t :=
  ⟨fun _ here => here, fun _ _ => .inl rfl⟩

theorem weaken (grows : Grows written t t') (sub : ∀ x, written x → more x) : Grows more t t' :=
  ⟨grows.directories, fun x apart => grows.elsewhere x fun member => apart (sub x member)⟩

theorem trans (first : Grows written t t') (second : Grows written t' t'') :
    Grows written t t'' := by
  refine ⟨fun x here => second.directories x (first.directories x here), fun x apart => ?_⟩
  rcases first.elsewhere x apart with same | ⟨absent, made⟩
  · rcases second.elsewhere x apart with same' | ⟨absent, made⟩
    · exact .inl (same'.trans same)
    · exact .inr ⟨same ▸ absent, made⟩
  · exact .inr ⟨absent, second.directories x made⟩

theorem stays (grows : Grows written t t') (apart : ¬ written x) {entry : Entry}
    (here : t.find? x = some entry) : t'.find? x = some entry := by
  rcases grows.elsewhere x apart with same | ⟨absent, _⟩
  · exact same.trans here
  · rw [absent] at here
    cases here

theorem file_iff (grows : Grows written t t') (apart : ¬ written x) (content : List UInt8) :
    t'.find? x = some (.file content) ↔ t.find? x = some (.file content) := by
  constructor
  · intro here
    rcases grows.elsewhere x apart with same | ⟨_, made⟩
    · exact same.symm.trans here
    · rw [made] at here
      cases here
  · exact grows.stays apart

theorem passable (grows : Grows written t t') (before : t.Passable at_ names) :
    t'.Passable at_ names :=
  before.mono grows.directories

end Grows

@[simp] theorem find?_root (t : FileTree) : t.find? [] = some .directory := rfl

theorem inside_of_not_directory (other : t.find? x ≠ some .directory) : x ≠ [] := by
  rintro rfl
  exact other rfl

theorem find?_put_of_not_directory {place : Place} (other : t.find? place ≠ some .directory)
    (entry : Entry) (x : Place) :
    (t.put place entry).find? x = if x = place then some entry else t.find? x :=
  find?_put (inside_of_not_directory other) entry x

theorem grows_put_directory {place : Place} (absent : t.find? place = none) :
    Grows (fun _ => False) t (t.put place .directory) := by
  have other : t.find? place ≠ some .directory := by simp [absent]
  have found := find?_put_of_not_directory other .directory
  refine ⟨fun x here => ?_, fun x _ => ?_⟩
  · rw [found]
    split
    · rfl
    · exact here
  · rw [found]
    split
    · next same => exact .inr ⟨same ▸ absent, rfl⟩
    · exact .inl rfl

theorem grows_put_file {place : Place} (other : t.find? place ≠ some .directory)
    (content : List UInt8) : Grows (· = place) t (t.put place (.file content)) := by
  have found := find?_put_of_not_directory other (.file content)
  refine ⟨fun x here => ?_, fun x apart => ?_⟩
  · have apart : x ≠ place := by
      rintro rfl
      exact other here
    rw [found, if_neg apart, here]
  · rw [found, if_neg apart]
    exact .inl rfl

def makeLast (t : FileTree) (at_ : Place) (names : List String) :
    FileTree × Option (SystemFault × List String) :=
  match t.makeDir at_ names with
  | .ok made => (made, none)
  | .error fault =>
    if fault ≠ .notFound ∧ t.isDirectory at_ names then (t, none) else (t, some (fault, names))

theorem makeDirsReversed_of_missing {last : String} {up : List String}
    (missing : t.makeDir at_ (last :: up).reverse = .error .notFound) :
    t.makeDirsReversed at_ (last :: up) =
      match t.makeDirsReversed at_ up with
      | (above, some fault) => (above, some fault)
      | (above, none) => above.makeLast at_ (last :: up).reverse := by
  rw [makeDirsReversed, missing]
  obtain ⟨above, fault⟩ := t.makeDirsReversed at_ up
  cases fault with
  | some fault => rfl
  | none =>
    simp only [makeLast]
    cases further : above.makeDir at_ (last :: up).reverse with
    | ok made => rfl
    | error fault => cases fault <;> simp

theorem makeDirsReversed_of_known {last : String} {up : List String}
    (known : t.makeDir at_ (last :: up).reverse ≠ .error .notFound) :
    t.makeDirsReversed at_ (last :: up) = t.makeLast at_ (last :: up).reverse := by
  rw [makeDirsReversed, makeLast]
  cases here : t.makeDir at_ (last :: up).reverse with
  | ok made => rfl
  | error fault =>
    have other : fault ≠ .notFound := fun same => known (same ▸ here)
    cases fault <;> simp_all

theorem makeLast_grows (t : FileTree) (at_ : Place) (names : List String) :
    Grows (fun _ => False) t (t.makeLast at_ names).1 := by
  rw [makeLast]
  split
  · next made same =>
    obtain ⟨_, absent, rfl⟩ := makeDir_eq_ok.mp same
    exact grows_put_directory absent
  · split <;> exact .refl _ t

theorem makeDirsReversed_grows (t : FileTree) (at_ : Place) (reversed : List String) :
    Grows (fun _ => False) t (t.makeDirsReversed at_ reversed).1 := by
  -- A missing directory is made after those above it, any other one by itself.
  induction reversed with
  | nil => exact .refl _ t
  | cons last up ih =>
    by_cases missing : t.makeDir at_ (last :: up).reverse = .error .notFound
    · rw [makeDirsReversed_of_missing missing]
      split
      · next same => rwa [same] at ih
      · next above same =>
        rw [same] at ih
        exact ih.trans (makeLast_grows above at_ _)
    · rw [makeDirsReversed_of_known missing]
      exact makeLast_grows t at_ _

theorem makeDirs_grows (t : FileTree) (at_ : Place) (names : List String) :
    Grows (fun _ => False) t (t.makeDirs at_ names).1 :=
  makeDirsReversed_grows t at_ names.reverse

/-- All directories on a walk are there, and nothing else changed. -/
structure Made (at_ : Place) (names : List String) (t t' : FileTree) : Prop where
  passable : t'.Passable at_ names
  find? : ∀ x, t'.find? x = if x ∈ trail at_ names then some .directory else t.find? x

theorem Made.find?_of_mem (made : Made at_ names t t') {x : Place} (member : x ∈ trail at_ names) :
    t'.find? x = some .directory := by
  rw [made.find?, if_pos member]

theorem Made.find?_of_not_mem (made : Made at_ names t t') {x : Place} (aside : x ∉ trail at_ names) :
    t'.find? x = t.find? x := by
  rw [made.find?, if_neg aside]

theorem makeLast_eq_none (ended : t.makeLast at_ names = (t', none)) :
    t'.Passable at_ names ∧
      ∀ x, t'.find? x = if x = walk at_ names then some .directory else t.find? x := by
  rw [makeLast] at ended
  split at ended
  · next made same =>
    cases ended
    obtain ⟨passable, absent, rfl⟩ := makeDir_eq_ok.mp same
    exact ⟨(grows_put_directory absent).passable passable,
      find?_put_of_not_directory (by simp [absent]) .directory⟩
  · split at ended
    · next there =>
      cases ended
      obtain ⟨passable, here⟩ := isDirectory_iff.mp there.2
      refine ⟨passable, fun x => ?_⟩
      split
      · next same => rw [same, here]
      · rfl
    · cases ended

theorem Made.concat {last : String} {up : List String} (above : Made at_ up t t')
    (ended : t'.makeLast at_ (up ++ [last]) = (t'', none)) : Made at_ (up ++ [last]) t t'' := by
  obtain ⟨passable, found⟩ := makeLast_eq_none ended
  refine ⟨passable, fun x => ?_⟩
  simp only [found, trail_concat, List.mem_append, List.mem_singleton, above.find?]
  by_cases here : x = walk at_ (up ++ [last]) <;> by_cases member : x ∈ trail at_ up <;>
    simp [here, member]

theorem makeDirsReversed_eq_none {reversed : List String}
    (ended : t.makeDirsReversed at_ reversed = (t', none)) : Made at_ reversed.reverse t t' := by
  induction reversed generalizing t' with
  | nil =>
    cases ended
    exact ⟨trivial, fun x => by simp [trail]⟩
  | cons last up ih =>
    rw [List.reverse_cons]
    by_cases missing : t.makeDir at_ (last :: up).reverse = .error .notFound
    · rw [makeDirsReversed_of_missing missing, List.reverse_cons] at ended
      split at ended
      · cases ended
      · next above same => exact (ih same).concat ended
    · -- Everything above the last directory was there before.
      rw [makeDirsReversed_of_known missing, List.reverse_cons] at ended
      obtain ⟨passable, found⟩ := makeLast_eq_none ended
      refine ⟨passable, fun x => ?_⟩
      simp only [found, trail_concat, List.mem_append, List.mem_singleton]
      by_cases here : x = walk at_ (up.reverse ++ [last])
      · simp [here]
      · by_cases member : x ∈ trail at_ up.reverse
        · have there := passable.directory member
          rw [found, if_neg here] at there
          simp [member, there]
        · simp [member]

theorem makeDirs_eq_none (ended : t.makeDirs at_ names = (t', none)) : Made at_ names t t' := by
  have made := makeDirsReversed_eq_none ended
  rwa [List.reverse_reverse] at made

theorem makeDirs_of_directory (passable : t.Passable at_ names)
    (here : t.find? (walk at_ names) = some .directory) : t.makeDirs at_ names = (t, none) := by
  have there : t.isDirectory at_ names = true := isDirectory_iff.mpr ⟨passable, here⟩
  have taken : t.makeDir at_ names = .error .alreadyExists := by
    simp [makeDir, resolve_of_passable passable, here]
  rw [makeDirs]
  cases reversed : names.reverse with
  | nil => rfl
  | cons last up =>
    have same : (last :: up).reverse = names := by rw [← reversed, List.reverse_reverse]
    have known : t.makeDir at_ (last :: up).reverse ≠ .error .notFound := by simp [same, taken]
    rw [makeDirsReversed_of_known known, same, makeLast, taken]
    simp [there]

end FileTree

end PluginCompiler
