import Mathlib.Data.Fintype.EquivFin
import PluginCompiler.Proofs.Generate.Completion
import PluginCompiler.Proofs.Plan.Folders
import PluginCompiler.Spec.Parse

/-! When everything that is generated is inside the root: exactly if no declared name starts with a
slash or climbs out of the directory of its file by steps upwards. -/

set_option autoImplicit false

namespace PluginCompiler

namespace Place

def Below (base x : Place) : Prop := base <+: x ∧ x ≠ base

instance (base x : Place) : Decidable (Below base x) := inferInstanceAs (Decidable (_ ∧ _))

theorem below_concat {base x : Place} {file : String} : Below base (x ++ [file]) ↔ base <+: x := by
  rw [Below, List.prefix_concat_iff]
  constructor
  · rintro ⟨same | inside, other⟩
    · exact absurd same.symm other
    · exact inside
  · intro inside
    refine ⟨.inr inside, fun same => ?_⟩
    have short := inside.length_le
    rw [← same, List.length_append, List.length_singleton] at short
    omega

/-- From a depth on, steps never lead above where the depth is counted from. -/
def Stays : Nat → List String → Prop
  | _, [] => True
  | depth, name :: rest =>
    if name = ".." then 0 < depth ∧ Stays (depth - 1) rest else Stays (depth + 1) rest

theorem Stays.inside {base extra : Place} {names : List String} (stays : Stays extra.length names) :
    base <+: walk (base ++ extra) names := by
  induction names generalizing extra with
  | nil => exact List.prefix_append base extra
  | cons name rest ih =>
    rw [Stays] at stays
    by_cases up : name = ".."
    · rw [if_pos up] at stays
      have filled : extra ≠ [] := List.length_pos_iff.mp stays.1
      rw [walk_cons, step, if_pos up, List.dropLast_append_of_ne_nil filled]
      apply ih
      rw [List.length_dropLast]
      exact stays.2
    · rw [if_neg up] at stays
      rw [walk_cons, step_name up, List.append_assoc]
      apply ih
      rw [List.length_append]
      exact stays

theorem mem_walk {at_ : Place} {names : List String} {x : String} (member : x ∈ walk at_ names) :
    x ∈ at_ ∨ x ∈ names := by
  induction names generalizing at_ with
  | nil => exact .inl member
  | cons name rest ih =>
    rw [walk_cons] at member
    rcases ih member with member | member
    · rw [step] at member
      split at member
      · exact .inl ((List.dropLast_prefix at_).subset member)
      · rcases List.mem_append.mp member with member | member
        · exact .inl member
        · rw [List.mem_singleton] at member
          exact .inr (member ▸ List.mem_cons_self)
    · exact .inr (List.mem_cons_of_mem name member)

/-- Once above its base, a walk does not come back to a base of a name that it does not take. -/
theorem stays_of_inside {name : String} {extra : Place} {names : List String}
    (fresh : name ∉ names) (inside : [name] <+: walk ([name] ++ extra) names) :
    Stays extra.length names := by
  induction names generalizing extra with
  | nil => trivial
  | cons head rest ih =>
    rw [List.mem_cons, not_or] at fresh
    rw [Stays]
    rw [walk_cons, step] at inside
    split
    · next up =>
      rw [if_pos up] at inside
      by_cases filled : extra = []
      · -- The walk leaves the base; what it ends at holds only names that are still to come.
        subst filled
        have member : name ∈ walk [] rest := inside.subset List.mem_cons_self
        rcases mem_walk member with none | member
        · cases none
        · exact absurd member fresh.2
      · rw [List.dropLast_append_of_ne_nil filled] at inside
        have further := ih fresh.2 inside
        rw [List.length_dropLast] at further
        exact ⟨List.length_pos_iff.mpr filled, further⟩
    · next down =>
      rw [if_neg down, List.append_assoc] at inside
      have further := ih fresh.2 inside
      rwa [List.length_append] at further

theorem stays_iff {extra : Place} {names : List String} :
    (∀ base : Place, base <+: walk (base ++ extra) names) ↔ Stays extra.length names := by
  constructor
  · intro inside
    obtain ⟨name, fresh⟩ := Infinite.exists_notMem_finset names.toFinset
    exact stays_of_inside (by simpa using fresh) (inside [name])
  · exact fun stays base => stays.inside

end Place

open Place FileTree

namespace Spec

variable {spec : Spec} {source : List UInt8} {root : Path} {cwd base : Place}

/-- Every declared name leads to a place at or below a base, from the directory of its file there. -/
def ContainedAt (spec : Spec) (base : Place) : Prop :=
  ∀ directory name, Plan.Named spec directory name →
    name.toList.head? ≠ some '/' ∧ base <+: walk (base ++ directory) (Path.folders name)

/-- No declared name starts with a slash or climbs out of the directory of its file and further up
than that directory is deep. -/
def Contained (spec : Spec) : Prop :=
  ∀ directory name, Plan.Named spec directory name →
    name.toList.head? ≠ some '/' ∧ Stays directory.length (Path.folders name)

theorem containedAt_iff : (∀ base, spec.ContainedAt base) ↔ spec.Contained := by
  constructor
  · intro contained directory name named
    exact ⟨(contained [] directory name named).1,
      stays_iff.mp fun base => (contained base directory name named).2⟩
  · intro contained base directory name named
    exact ⟨(contained directory name named).1, stays_iff.mpr (contained directory name named).2 base⟩

theorem below_inDirectory {directory : List String} {name ending : String}
    (down : ".." ∉ directory) (plain : Plan.PlainName ending)
    (relative : name.toList.head? ≠ some '/') :
    Below base (walk base (Plan.inDirectory directory (name ++ ending)).parts) ↔
      base <+: walk (base ++ directory) (Path.folders name) := by
  obtain ⟨file, other, parts⟩ := Plan.inDirectory_parts directory plain relative
  rw [parts, List.append_assoc, walk_append, walk_append, walk_down down, walk_cons, walk_nil,
    step_name other, below_concat]

theorem outputs_below_iff (source : List UInt8) :
    (∀ o ∈ Plan.outputs spec source, o.path.root = .relative ∧
      Below base (walk base o.path.parts)) ↔ spec.ContainedAt base := by
  constructor
  · intro inside directory name named
    obtain ⟨o, member, _, path⟩ := Plan.exists_of_listed source named.listed
    obtain ⟨relative, below⟩ := inside o member
    rw [path, Plan.inDirectory_root Plan.plainName_go] at relative
    rw [path, below_inDirectory named.down Plan.plainName_go relative] at below
    exact ⟨relative, below⟩
  · intro contained o member
    rcases (Plan.listed_of_mem member).named with
      ⟨directory, name, ending, named, plain, path⟩ | ⟨relative, down, filled⟩
    · obtain ⟨relative, inside⟩ := contained directory name named
      rw [path, Plan.inDirectory_root plain, below_inDirectory named.down plain relative]
      exact ⟨relative, inside⟩
    · refine ⟨relative, ?_⟩
      rw [walk_down down, ← List.dropLast_concat_getLast filled, ← List.append_assoc, below_concat]
      exact List.prefix_append _ _

/-- A run of a contained spec, however it ends, creates and overwrites files only inside the root. -/
theorem generate_of_containedAt {workspace : Path} {t : FileTree} {x : Place}
    (home : spec.outputRoot workspace = .ok root) (contained : spec.ContainedAt (root.place cwd))
    (outside : ¬ Below (root.place cwd) x) (content : List UInt8) :
    (spec.generate source workspace cwd t).tree.find? x = some (.file content) ↔
      t.find? x = some (.file content) := by
  apply (spec.generate_grows source workspace cwd t).file_iff
  rintro ⟨root', home', o, member, rfl⟩
  rw [home] at home'
  cases home'
  obtain ⟨relative, below⟩ := (outputs_below_iff source).mpr contained o member
  apply outside
  rw [Output.place, Path.place_join relative]
  exact below

theorem contained_of_slashless (slashless : spec.Slashless) : spec.Contained := by
  intro directory name named
  have whole : '/' ∉ name.toList := by
    cases named with
    | @handler kind name member => exact slashless name (mem_declared_of_handler kind member)
    | route member => exact slashless name (mem_declared_of_handler .action member)
    | customType member => exact slashless name (mem_declared_of_type member)
  have none : Path.folders name = [] := by simp [Path.folders, Plan.segments_of_whole whole]
  rw [none]
  exact ⟨fun slash => whole (List.mem_of_head? slash), trivial⟩

/-- All outputs are inside the root exactly if every declared name stays there, which for all roots
says that none starts with a slash or climbs too far; and then no run touches a file outside. -/
theorem outputs_contained_iff (spec : Spec) (source : List UInt8) :
    (∀ (root : Path) (cwd : Place), (∀ o ∈ Plan.outputs spec source,
      o.path.root = .relative ∧ Below (root.place cwd) (o.place root cwd)) ↔
        spec.ContainedAt (root.place cwd)) ∧
    ((∀ base, spec.ContainedAt base) ↔ spec.Contained) ∧
    (∀ (workspace root : Path) (cwd : Place) (t : FileTree) (x : Place),
      spec.outputRoot workspace = .ok root → spec.ContainedAt (root.place cwd) →
      ¬ Below (root.place cwd) x → ∀ content,
        ((spec.generate source workspace cwd t).tree.find? x = some (.file content) ↔
          t.find? x = some (.file content))) := by
  refine ⟨fun root cwd => ?_, containedAt_iff, fun workspace root cwd t x home contained outside =>
    generate_of_containedAt home contained outside⟩
  rw [← outputs_below_iff source]
  refine forall₂_congr fun o _ => and_congr_right fun relative => ?_
  rw [Output.place, Path.place_join relative]

def neighbour : FileTree := ⟨[(["victim.go"], .file handWritten)]⟩

theorem outputs_contained_posting :
    (posting "post").ContainedAt ["p"] ∧
      (((posting "post").generate [] ⟨.relative, []⟩ [] neighbour).tree.find? ["victim.go"] =
          some (.file handWritten) ↔
        neighbour.find? ["victim.go"] = some (.file handWritten)) := by
  have contained := contained_of_slashless (by decide : (posting "post").Slashless)
  obtain ⟨_, all, apart⟩ := outputs_contained_iff (posting "post") []
  have home : (posting "post").outputRoot ⟨.relative, []⟩ = .ok ⟨.relative, ["p"]⟩ := by rfl
  exact ⟨all.mpr contained ["p"], apart ⟨.relative, []⟩ ⟨.relative, ["p"]⟩ [] neighbour ["victim.go"]
    home (all.mpr contained ["p"]) (by decide) handWritten⟩

def Accepted (document packageRoot : String) (spec : Spec) : Prop :=
  ∃ location declared, parse (.text document) packageRoot location = .ok declared ∧
    declared.enrich = .ok spec

theorem exists_enriched_of_any {source : Source} {packageRoot location : String} {test : Spec → Bool}
    (passed : (parse source packageRoot location).toOption.any
      (fun declared => declared.enrich.toOption.any test) = true) :
    ∃ declared spec, parse source packageRoot location = .ok declared ∧ declared.enrich = .ok spec ∧
      test spec = true := by
  obtain ⟨declared, parsed, passed⟩ := exists_ok_of_any passed
  obtain ⟨spec, enriched, passed⟩ := exists_ok_of_any passed
  exact ⟨declared, spec, parsed, enriched, passed⟩

/-- A document whose custom type is named like a way out of its directory and of the package. -/
def trespassing : String := "name: x\ntypes:\n  ../../victim: \x7b\x7d\n"

theorem exists_trespassing : ∃ spec os, Accepted trespassing "p" spec ∧ spec.plan [] = .ok os ∧
    spec.outputRoot ⟨.relative, []⟩ = .ok ⟨.relative, ["p"]⟩ ∧
    (∃ o ∈ os, ¬ Below ["p"] (o.place ⟨.relative, ["p"]⟩ [])) ∧
    (spec.generate [] ⟨.relative, []⟩ [] neighbour).tree.find? ["victim.go"] ≠
      some (.file handWritten) := by
  have passed : (parse (.text trespassing) "p" "").toOption.any (fun declared =>
      declared.enrich.toOption.any fun spec =>
        (spec.plan []).toOption.any (fun os =>
          os.any fun o => ¬ Below ["p"] (o.place ⟨.relative, ["p"]⟩ [])) &&
        (spec.outputRoot ⟨.relative, []⟩).toOption.any (· = ⟨.relative, ["p"]⟩) &&
        (spec.generate [] ⟨.relative, []⟩ [] neighbour).tree.find? ["victim.go"] !=
          some (.file handWritten)) = true := by
    decide +kernel
  obtain ⟨declared, spec, parsed, enriched, passed⟩ := exists_enriched_of_any passed
  simp only [Bool.and_eq_true, bne_iff_ne] at passed
  obtain ⟨⟨planned, rooted⟩, changed⟩ := passed
  obtain ⟨os, planned, escaping⟩ := exists_ok_of_any planned
  obtain ⟨root, rooted, same⟩ := exists_ok_of_any rooted
  rw [of_decide_eq_true same] at rooted
  obtain ⟨o, member, escapes⟩ := List.any_eq_true.mp escaping
  exact ⟨spec, os, ⟨"", declared, parsed, enriched⟩, planned, rooted,
    ⟨o, member, of_decide_eq_true escapes⟩, changed⟩

/-- The type is planned beside the package, and its file is written over what stands there. -/
theorem not_outputs_contained :
    (¬ ∀ (document packageRoot : String) (spec : Spec) (source : List UInt8) (os : List Output)
      (workspace root : Path) (cwd : Place), Accepted document packageRoot spec →
      spec.plan source = .ok os → spec.outputRoot workspace = .ok root →
      ∀ o ∈ os, o.path.root = .relative ∧ Below (root.place cwd) (o.place root cwd)) ∧
    (¬ ∀ (document packageRoot : String) (spec : Spec) (source : List UInt8) (os : List Output)
      (workspace root : Path) (cwd : Place) (t : FileTree) (x : Place) (content : List UInt8),
      Accepted document packageRoot spec → spec.plan source = .ok os →
      spec.outputRoot workspace = .ok root → ¬ Below (root.place cwd) x →
      t.find? x = some (.file content) →
      (spec.generate source workspace cwd t).tree.find? x = some (.file content)) := by
  obtain ⟨spec, os, accepted, planned, rooted, ⟨o, member, escapes⟩, changed⟩ := exists_trespassing
  constructor
  · intro claim
    exact escapes (claim trespassing "p" spec [] os _ _ [] accepted planned rooted o member).2
  · intro claim
    exact changed (claim trespassing "p" spec [] os _ _ [] neighbour ["victim.go"] handWritten
      accepted planned rooted (by decide) rfl)

end Spec

end PluginCompiler
