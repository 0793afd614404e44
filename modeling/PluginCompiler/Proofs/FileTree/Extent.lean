import PluginCompiler.Proofs.FileTree.Path

/-! How far operations reach. Making directories adds some on the way and nothing else, even if it
fails, and it succeeds as soon as nothing but directories is on the way. -/

set_option autoImplicit false

namespace PluginCompiler

open Place FileTree

namespace FileTree

variable {t t' t'' : FileTree} {at_ x : Place} {names : List String}

/-- What changed at a place, if anything: a new directory, or a file where no directory was. -/
inductive ChangedAt (directories files : Place → Prop) (t t' : FileTree) (x : Place) : Prop where
  | same (same : t'.find? x = t.find? x)
  | directory (member : directories x) (absent : t.find? x = none)
      (made : t'.find? x = some .directory)
  | file (member : files x) (other : t.find? x ≠ some .directory) (content : List UInt8)
      (written : t'.find? x = some (.file content))

/-- A tree that changed only by new directories and files at given places. -/
def Changed (directories files : Place → Prop) (t t' : FileTree) : Prop :=
  ∀ x, ChangedAt directories files t t' x

namespace Changed

variable {directories files more further : Place → Prop}

theorem refl (directories files : Place → Prop) (t : FileTree) : Changed directories files t t :=
  fun _ => .same rfl

theorem weaken (changed : Changed directories files t t') (sub : ∀ x, directories x → more x)
    (sub' : ∀ x, files x → further x) : Changed more further t t' := fun x => by
  cases changed x with
  | same same => exact .same same
  | directory member absent made => exact .directory (sub x member) absent made
  | file member other content written => exact .file (sub' x member) other content written

theorem trans (first : Changed directories files t t') (second : Changed directories files t' t'') :
    Changed directories files t t'' := fun x => by
  cases first x with
  | same same =>
    cases second x with
    | same same' => exact .same (same'.trans same)
    | directory member absent made => exact .directory member (same ▸ absent) made
    | file member other content written => exact .file member (same ▸ other) content written
  | directory member absent made =>
    cases second x with
    | same same' => exact .directory member absent (same'.trans made)
    | directory _ absent' => simp [made] at absent'
    | file _ other => exact absurd made other
  | file member other content written =>
    cases second x with
    | same same' => exact .file member other content (same'.trans written)
    | directory _ absent => simp [written] at absent
    | file _ _ content' written' => exact .file member other content' written'

theorem directory_of_find? (changed : Changed directories files t t')
    (here : t'.find? x = some .directory) :
    t.find? x = some .directory ∨ t.find? x = none ∧ directories x := by
  cases changed x with
  | same same => exact .inl (same.symm.trans here)
  | directory member absent => exact .inr ⟨absent, member⟩
  | file _ _ content written => simp [written] at here

theorem open_of_find? (changed : Changed directories files t t')
    (open_ : t'.find? x = none ∨ t'.find? x = some .directory) :
    t.find? x = none ∨ t.find? x = some .directory := by
  cases changed x with
  | same same => rwa [same] at open_
  | directory _ absent => exact .inl absent
  | file _ _ content written => simp [written] at open_

end Changed

theorem changed_put_directory {place : Place} (absent : t.find? place = none) (x : Place) :
    ChangedAt (· = place) (fun _ => False) t (t.put place .directory) x := by
  have other : t.find? place ≠ some .directory := by simp [absent]
  have found := find?_put_of_not_directory other .directory x
  by_cases here : x = place
  · rw [if_pos here] at found
    exact .directory here (here ▸ absent) found
  · rw [if_neg here] at found
    exact .same found

theorem changed_put_file {place : Place} (other : t.find? place ≠ some .directory)
    (content : List UInt8) :
    Changed (fun _ => False) (· = place) t (t.put place (.file content)) := fun x => by
  have found := find?_put_of_not_directory other (.file content) x
  by_cases here : x = place
  · rw [if_pos here] at found
    exact .file here (here ▸ other) content found
  · rw [if_neg here] at found
    exact .same found

theorem makeLast_changed (t : FileTree) (at_ : Place) (names : List String) :
    Changed (· = walk at_ names) (fun _ => False) t (t.makeLast at_ names).1 := by
  rw [makeLast]
  split
  · next made same =>
    obtain ⟨_, absent, rfl⟩ := makeDir_eq_ok.mp same
    exact changed_put_directory absent
  · split <;> exact .refl _ _ t

/-- However making directories ends, it adds some on the way and nothing else. -/
theorem makeDirsReversed_changed (t : FileTree) (at_ : Place) (reversed : List String) :
    Changed (· ∈ trail at_ reversed.reverse) (fun _ => False) t
      (t.makeDirsReversed at_ reversed).1 := by
  induction reversed with
  | nil => exact .refl _ _ t
  | cons last up ih =>
    have above : ∀ x, x ∈ trail at_ up.reverse → x ∈ trail at_ (last :: up).reverse := by
      intro x member
      rw [List.reverse_cons, trail_concat]
      exact List.mem_append_left _ member
    have final : ∀ x, x = walk at_ (last :: up).reverse → x ∈ trail at_ (last :: up).reverse := by
      rintro x rfl
      rw [List.reverse_cons, trail_concat]
      simp
    by_cases missing : t.makeDir at_ (last :: up).reverse = .error .notFound
    · rw [makeDirsReversed_of_missing missing]
      have first := ih.weaken above fun _ none => none
      split
      · next same => rwa [same] at first
      · next made same =>
        rw [same] at first
        exact first.trans ((makeLast_changed made at_ _).weaken final fun _ none => none)
    · rw [makeDirsReversed_of_known missing]
      exact (makeLast_changed t at_ _).weaken final fun _ none => none

/-- Nothing but directories is on the way, and all names on it fit. -/
structure Clear (t : FileTree) (at_ : Place) (names : List String) : Prop where
  start : names ≠ [] → t.find? at_ = some .directory
  fits : ∀ name ∈ names, name = ".." ∨ name.utf8ByteSize ≤ longestName
  free : ∀ x ∈ trail at_ names, t.find? x = none ∨ t.find? x = some .directory

theorem resolve_eq_notFound {fault : SystemFault} (clear : t.Clear at_ names)
    (failed : t.resolve at_ names = .error fault) : fault = .notFound := by
  induction names generalizing at_ with
  | nil => cases failed
  | cons name rest ih =>
    obtain ⟨start, fits, free⟩ := clear
    obtain ⟨first, further⟩ := List.forall_mem_cons.mp free
    obtain ⟨fit, fits⟩ := List.forall_mem_cons.mp fits
    have stepped : t.resolve at_ (name :: rest) = t.resolve (step at_ name) rest := by
      rw [resolve, start (by simp)]
      by_cases up : name = ".."
      · simp [up, step]
      · have short : ¬ longestName < name.utf8ByteSize := Nat.not_lt.mpr (fit.resolve_left up)
        simp [up, short, step]
    rw [stepped] at failed
    rcases first with absent | here
    · cases rest with
      | nil => cases failed
      | cons next rest =>
        rw [resolve, absent] at failed
        cases failed
        rfl
    · exact ih ⟨fun _ => here, fits, further⟩ failed

theorem Clear.above {up : List String} {last : String} (clear : t.Clear at_ (up ++ [last])) :
    t.Clear at_ up where
  start := fun _ => clear.start (by simp)
  fits := fun name member => clear.fits name (List.mem_append_left _ member)
  free := fun x member => clear.free x (by
    rw [trail_concat]
    exact List.mem_append_left _ member)

theorem Clear.changed {directories : Place → Prop} (clear : t.Clear at_ names)
    (changed : Changed directories (fun _ => False) t t') : t'.Clear at_ names where
  start := fun filled => by
    have here := clear.start filled
    cases changed at_ with
    | same same => exact same.trans here
    | directory _ _ made => exact made
    | file none => exact none.elim
  fits := clear.fits
  free := fun x member => by
    cases changed x with
    | same same => exact same ▸ clear.free x member
    | directory _ _ made => exact .inr made
    | file none => exact none.elim

theorem makeLast_of_passable (passable : t.Passable at_ names)
    (free : t.find? (walk at_ names) = none ∨ t.find? (walk at_ names) = some .directory) :
    ∃ made, t.makeLast at_ names = (made, none) := by
  rw [makeLast]
  rcases free with absent | here
  · rw [makeDir_eq_ok.mpr ⟨passable, absent, rfl⟩]
    exact ⟨_, rfl⟩
  · have taken : t.makeDir at_ names = .error .alreadyExists := by
      simp [makeDir, resolve_of_passable passable, here]
    have there : t.isDirectory at_ names = true := isDirectory_iff.mpr ⟨passable, here⟩
    simp [taken, there]

theorem Made.end_ (made : Made at_ names t t') (start : t.find? at_ = some .directory) :
    t'.find? (walk at_ names) = some .directory := by
  rw [made.find?]
  rcases List.eq_nil_or_concat names with rfl | ⟨up, last, rfl⟩
  · simpa [trail] using start
  · rw [if_pos (by simp [trail_concat])]

theorem makeDirsReversed_of_clear {reversed : List String} (clear : t.Clear at_ reversed.reverse) :
    ∃ made, t.makeDirsReversed at_ reversed = (made, none) := by
  induction reversed with
  | nil => exact ⟨t, rfl⟩
  | cons last up ih =>
    rw [List.reverse_cons] at clear
    have ends : walk at_ (up.reverse ++ [last]) ∈ trail at_ (up.reverse ++ [last]) := by
      simp [trail_concat]
    cases resolved : t.resolve at_ (up.reverse ++ [last]) with
    | ok place =>
      obtain ⟨passable, rfl⟩ := resolve_eq_ok.mp resolved
      have known : t.makeDir at_ (last :: up).reverse ≠ .error .notFound := by
        rw [List.reverse_cons, makeDir, resolved]
        dsimp only
        cases t.find? (walk at_ (up.reverse ++ [last])) <;> simp
      rw [makeDirsReversed_of_known known, List.reverse_cons]
      exact makeLast_of_passable passable (clear.free _ ends)
    | error fault =>
      cases resolve_eq_notFound clear resolved
      have missing : t.makeDir at_ (last :: up).reverse = .error .notFound := by
        rw [List.reverse_cons, makeDir, resolved]
      rw [makeDirsReversed_of_missing missing, List.reverse_cons]
      obtain ⟨above, made⟩ := ih clear.above
      have changed := makeDirsReversed_changed t at_ up
      rw [made] at changed
      have directories := makeDirsReversed_eq_none made
      -- Above the last directory everything is made now.
      have open_ : above.Passable at_ (up.reverse ++ [last]) :=
        passable_concat.mpr ⟨directories.passable, directories.end_ (clear.start (by simp)),
          clear.fits last (by simp)⟩
      simp only [made]
      exact makeLast_of_passable open_ ((clear.changed changed).free _ ends)

theorem makeDirs_of_clear (clear : t.Clear at_ names) : ∃ made, t.makeDirs at_ names = (made, none) :=
  makeDirsReversed_of_clear (by rwa [List.reverse_reverse])

theorem Passable.fits (passable : t.Passable at_ names) :
    ∀ name ∈ names, name = ".." ∨ name.utf8ByteSize ≤ longestName := by
  induction names generalizing at_ with
  | nil => simp
  | cons name rest ih => exact List.forall_mem_cons.mpr ⟨passable.2.1, ih passable.2.2⟩

theorem passable_of_makeLast (ended : t.makeLast at_ names = (t', none)) : t.Passable at_ names := by
  rw [makeLast] at ended
  split at ended
  · next same => exact (makeDir_eq_ok.mp same).1
  · split at ended
    · next there => exact (isDirectory_iff.mp there.2).1
    · cases ended

theorem start_of_makeDirsReversed {last : String} {up : List String}
    (ended : t.makeDirsReversed at_ (last :: up) = (t', none)) :
    t.find? at_ = some .directory := by
  -- The first directory that is made, however far up, is made below one that is there.
  have started {t t' : FileTree} {last : String} {up : List String}
      (ended : t.makeLast at_ (last :: up).reverse = (t', none)) : t.find? at_ = some .directory := by
    have passable := passable_of_makeLast ended
    cases names : (last :: up).reverse with
    | nil => simp at names
    | cons name rest =>
      rw [names] at passable
      exact passable.1
  induction up generalizing last t' with
  | nil =>
    by_cases missing : t.makeDir at_ [last].reverse = .error .notFound
    · rw [makeDirsReversed_of_missing missing] at ended
      exact started ended
    · rw [makeDirsReversed_of_known missing] at ended
      exact started ended
  | cons next up ih =>
    by_cases missing : t.makeDir at_ (last :: next :: up).reverse = .error .notFound
    · rw [makeDirsReversed_of_missing missing] at ended
      split at ended
      · cases ended
      · next above made => exact ih made
    · rw [makeDirsReversed_of_known missing] at ended
      exact started ended

theorem clear_of_makeDirs (ended : t.makeDirs at_ names = (t', none)) : t.Clear at_ names where
  start := fun filled => by
    rw [makeDirs] at ended
    cases reversed : names.reverse with
    | nil => exact absurd (by simpa using reversed) filled
    | cons last up =>
      rw [reversed] at ended
      exact start_of_makeDirsReversed ended
  fits := (makeDirs_eq_none ended).passable.fits
  free := fun x member => by
    have changed := makeDirsReversed_changed t at_ names.reverse
    rw [makeDirs] at ended
    rw [ended] at changed
    exact changed.open_of_find? (.inr ((makeDirs_eq_none ended).find?_of_mem member))

end FileTree

namespace Path

variable {p : Path} {cwd : Place} {t t' : FileTree}

theorem makeDirs_changed (p : Path) (cwd : Place) (t : FileTree) :
    Changed (· ∈ p.trail cwd) (fun _ => False) t (p.makeDirs cwd t).1 := by
  have changed := makeDirsReversed_changed t (p.start cwd) p.parts.reverse
  rw [List.reverse_reverse] at changed
  rw [makeDirs]
  split
  · exact .refl _ _ t
  · split
    · exact .refl _ _ t
    · split
      · next same =>
        rw [FileTree.makeDirs] at same
        rwa [same] at changed
      · next same =>
        rw [FileTree.makeDirs] at same
        rwa [same] at changed

structure Clear (p : Path) (cwd : Place) (t : FileTree) : Prop where
  clean : p.hasNul = false
  short : p.isLong = false
  way : t.Clear (p.start cwd) p.parts

theorem makeDirs_eq_none_iff : (∃ made, p.makeDirs cwd t = (made, none)) ↔ p.Clear cwd t := by
  rw [makeDirs]
  constructor
  · rintro ⟨made, ended⟩
    split at ended
    · cases ended
    · next clean =>
      split at ended
      · cases ended
      · next short =>
        split at ended
        · next same => exact ⟨by simpa using clean, by simpa using short, clear_of_makeDirs same⟩
        · cases ended
  · rintro ⟨clean, short, way⟩
    obtain ⟨made, ended⟩ := makeDirs_of_clear way
    simp only [clean, short, ended]
    exact ⟨made, rfl⟩

end Path

end PluginCompiler
