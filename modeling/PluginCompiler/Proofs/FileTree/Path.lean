import PluginCompiler.Proofs.FileTree.Change

/-! The place that a path leads to from a working directory, and what the operations on paths say
about it. -/

set_option autoImplicit false

namespace PluginCompiler

open FileTree

namespace Path

variable {p a b : Path} {cwd : Place} {t t' : FileTree}

def place (p : Path) (cwd : Place) : Place := Place.walk (p.start cwd) p.parts

def trail (p : Path) (cwd : Place) : List Place := Place.trail (p.start cwd) p.parts

/-- A path is short enough, and every step of it can be taken. -/
def Passable (p : Path) (cwd : Place) (t : FileTree) : Prop :=
  p.isLong = false ∧ t.Passable (p.start cwd) p.parts

theorem Passable.grows {written : Place → Prop} (passable : p.Passable cwd t)
    (grows : Grows written t t') : p.Passable cwd t' :=
  passable.imp_right grows.passable

theorem utf8ByteSize_intercalate_append (front rest : List String) :
    ("/".intercalate front).utf8ByteSize ≤ ("/".intercalate (front ++ rest)).utf8ByteSize := by
  induction front with
  | nil => simp
  | cons part front ih =>
    cases front with
    | nil =>
      cases rest with
      | nil => simp
      | cons next rest =>
        simp only [List.cons_append, List.nil_append, String.intercalate_cons_cons,
          String.intercalate_singleton, String.utf8ByteSize_append]
        omega
    | cons next front =>
      simp only [List.cons_append, String.intercalate_cons_cons, String.utf8ByteSize_append] at ih ⊢
      omega

theorem isLong_of_append {root : Root} {front rest : List String}
    (short : (⟨root, front ++ rest⟩ : Path).isLong = false) :
    (⟨root, front⟩ : Path).isLong = false := by
  have least := utf8ByteSize_intercalate_append front rest
  simp only [isLong, longestText, decide_eq_false_iff_not, Nat.not_lt, toString] at short ⊢
  cases root with
  | relative =>
    cases front with
    | nil => decide
    | cons part front => exact Nat.le_trans least short
  | single =>
    rw [String.utf8ByteSize_append] at short ⊢
    omega
  | double =>
    rw [String.utf8ByteSize_append] at short ⊢
    omega

theorem isLong_parent (short : p.isLong = false) : p.parent.isLong = false := by
  rcases List.eq_nil_or_concat p.parts with empty | ⟨up, name, parts⟩
  · rwa [show p.parent = p by cases p; simp_all [parent]]
  · rw [List.concat_eq_append] at parts
    rw [show p.parent = ⟨p.root, up⟩ by simp [parent, parts]]
    have whole : (⟨p.root, up ++ [name]⟩ : Path).isLong = false := parts ▸ short
    exact isLong_of_append whole

theorem join_of_relative (relative : b.root = .relative) (a : Path) :
    a.join b = ⟨a.root, a.parts ++ b.parts⟩ := if_pos relative

theorem place_join (relative : b.root = .relative) (a : Path) :
    (a.join b).place cwd = Place.walk (a.place cwd) b.parts := by
  rw [join_of_relative relative]
  exact Place.walk_append _ _ _

theorem place_join_down (relative : b.root = .relative) (down : ".." ∉ b.parts) (a : Path) :
    (a.join b).place cwd = a.place cwd ++ b.parts := by
  rw [place_join relative, Place.walk_down down]

theorem passable_join (relative : b.root = .relative) :
    (a.join b).Passable cwd t ↔
      (a.join b).isLong = false ∧ a.Passable cwd t ∧ t.Passable (a.place cwd) b.parts := by
  rw [join_of_relative relative, Passable, passable_append, Passable, place, and_assoc]
  constructor
  · rintro ⟨short, above, below⟩
    exact ⟨short, isLong_of_append short, above, below⟩
  · rintro ⟨short, _, above, below⟩
    exact ⟨short, above, below⟩

theorem hasNul_parent (clean : p.hasNul = false) : p.parent.hasNul = false := by
  simp only [hasNul, List.any_eq_false, parent] at clean ⊢
  exact fun part member => clean part ((List.dropLast_sublist p.parts).subset member)

theorem Passable.parent {name : String} {up : List String} (parts : p.parts = up ++ [name])
    (passable : p.Passable cwd t) :
    p.parent.Passable cwd t ∧ t.find? (p.parent.place cwd) = some .directory := by
  have split : p.parent.parts = up := by simp [Path.parent, parts]
  obtain ⟨short, passable⟩ := passable
  rw [parts, passable_concat] at passable
  rw [Passable, place, split]
  exact ⟨⟨isLong_parent short, passable.1⟩, passable.2.1⟩

theorem makeDirs_grows (p : Path) (cwd : Place) (t : FileTree) :
    Grows (fun _ => False) t (p.makeDirs cwd t).1 := by
  have grows := FileTree.makeDirs_grows t (p.start cwd) p.parts
  rw [makeDirs]
  split
  · exact .refl _ t
  · split
    · exact .refl _ t
    · split
      · next same => rwa [same] at grows
      · next same => rwa [same] at grows

theorem makeDirs_eq_none (ended : p.makeDirs cwd t = (t', none)) :
    Made (p.start cwd) p.parts t t' := by
  rw [makeDirs] at ended
  split at ended
  · cases ended
  · split at ended
    · cases ended
    · split at ended
      · next same =>
        cases ended
        exact FileTree.makeDirs_eq_none same
      · cases ended

theorem makeDirs_of_directory (clean : p.hasNul = false) (passable : p.Passable cwd t)
    (here : t.find? (p.place cwd) = some .directory) : p.makeDirs cwd t = (t, none) := by
  rw [makeDirs, clean, passable.1, FileTree.makeDirs_of_directory passable.2 here]
  rfl

theorem write_eq_ok {content : List UInt8} :
    p.write cwd content t = .ok t' ↔
      p.hasNul = false ∧ p.Passable cwd t ∧ t.find? (p.place cwd) ≠ some .directory ∧
        t' = t.put (p.place cwd) (.file content) := by
  rw [write, Passable, place, and_assoc, ← FileTree.write_eq_ok]
  cases p.hasNul with
  | true => simp
  | false =>
    cases p.isLong with
    | true => simp
    | false => cases t.write (p.start cwd) p.parts content <;> simp

theorem status_eq_ok {entry : Entry} :
    p.status cwd t = .ok entry ↔ p.Passable cwd t ∧ t.find? (p.place cwd) = some entry := by
  rw [status, Passable, place, and_assoc, ← FileTree.status_eq_ok]
  cases p.isLong <;> simp

theorem exists?_eq_true :
    p.exists? cwd t = .ok true ↔
      p.hasNul = false ∧ p.Passable cwd t ∧ ∃ entry, t.find? (p.place cwd) = some entry := by
  rw [exists?]
  cases p.hasNul with
  | true => simp
  | false =>
    simp only [← exists_and_left, ← status_eq_ok]
    cases p.status cwd t with
    | ok entry => simp
    | error fault => cases fault <;> simp

theorem absent_of_exists? (clean : p.hasNul = false) (passable : p.Passable cwd t)
    (missing : p.exists? cwd t = .ok false) : t.find? (p.place cwd) = none := by
  cases here : t.find? (p.place cwd) with
  | none => rfl
  | some entry =>
    rw [exists?_eq_true.mpr ⟨clean, passable, entry, here⟩] at missing
    cases missing

theorem exists?_of_absent (clean : p.hasNul = false) (passable : p.Passable cwd t)
    (absent : t.find? (p.place cwd) = none) : p.exists? cwd t = .ok false := by
  have missing : p.status cwd t = .error .notFound := by
    rw [place] at absent
    simp [status, passable.1, FileTree.status, resolve_of_passable passable.2, absent]
  simp only [exists?, clean, Bool.false_eq_true, ↓reduceIte, missing]

end Path

end PluginCompiler
