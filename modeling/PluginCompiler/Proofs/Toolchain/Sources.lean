import PluginCompiler.Proofs.FileTree.Listing
import PluginCompiler.Proofs.Generate.Abort
import PluginCompiler.Proofs.Generate.Containment
import PluginCompiler.Proofs.Plan.Comments
import PluginCompiler.Proofs.Toolchain.Commands

/-! The files that the formatter is run on. Below a root that was empty before a run that succeeded,
these are the planned Go files, and every directory named like one that is made there only on the way
to the root. -/

set_option autoImplicit false

namespace PluginCompiler

open Place FileTree
open Plan (PlainName letters plainName_letters utf8ByteSize_letters nul_not_mem_letters)

variable {root : Path} {cwd : Place} {o : Output} {os : List Output}

namespace Generate

variable {p : Progress} {t : FileTree}

theorem proper_emit (root : Path) (cwd : Place) (o : Output) (proper : p.tree.Proper) :
    (emit root cwd p o).1.tree.Proper := by
  have above := (root.join o.path).parent.proper_makeDirs cwd proper
  simp only [emit]
  split
  · exact proper
  · exact proper
  · split
    · exact proper
    · split
      · next same => rwa [same] at above
      · next made same =>
        rw [same] at above
        split
        · exact above
        · next tree put =>
          obtain ⟨_, _, _, rfl⟩ := Path.write_eq_ok.mp put
          exact above.put _ _

theorem proper_emitAll (root : Path) (cwd : Place) (os : List Output) (proper : p.tree.Proper) :
    (emitAll root cwd p os).1.tree.Proper := by
  induction os generalizing p with
  | nil => exact proper
  | cons o rest ih =>
    have first := proper_emit root cwd o proper
    rw [emitAll]
    split
    · next same => rwa [same] at first
    · next same =>
      rw [same] at first
      exact ih first

theorem proper_write (root : Path) (os : List Output) (cwd : Place) (proper : t.Proper) :
    (write root os cwd t).tree.Proper := by
  have home := root.proper_makeDirs cwd proper
  rw [write]
  split
  · next same => rwa [same] at home
  · next made same =>
    rw [same] at home
    have outputs := proper_emitAll (p := ⟨made, [], [], []⟩) root cwd os home
    split
    · next same => rwa [same] at outputs
    · next same => rwa [same] at outputs

end Generate

theorem Spec.proper_generate {before : FileTree} (spec : Spec) (source : List UInt8)
    (workspace : Path) (cwd : Place) (proper : before.Proper) :
    (spec.generate source workspace cwd before).tree.Proper := by
  rw [generate]
  split
  · exact proper
  · split
    · exact proper
    · exact Generate.proper_write _ _ cwd proper

namespace Toolchain

variable {entries : List (List String × Entry)} {names : List String} {t : FileTree}

def IsSource (names : List String) : Prop :=
  (∃ front name, names = front ++ [name] ∧ ".go".toList <:+ name.toList) ∧
    Plan.vendorDirectory ∉ names

theorem endsWith_iff {s ending : String} : s.endsWith ending = true ↔ ending.toList <:+ s.toList := by
  rw [String.endsWith_eq_endsWith_toSlice, String.Slice.endsWith_string_iff, String.copy_toSlice]

theorem mem_sourceNames :
    names ∈ sourceNames entries ↔ names ∈ entries.map Prod.fst ∧ IsSource names := by
  have ends : names.getLast?.any (·.endsWith ".go") = true ↔
      ∃ front name, names = front ++ [name] ∧ ".go".toList <:+ name.toList := by
    rcases List.eq_nil_or_concat names with rfl | ⟨front, name, rfl⟩
    · simp
    · simp [endsWith_iff]
  simp only [sourceNames, List.mem_mergeSort, List.mem_filter, Bool.and_eq_true, ends,
    Bool.not_eq_true', List.contains_eq_mem, decide_eq_false_iff_not, IsSource]

theorem pairwise_sourceNames (entries : List (List String × Entry)) :
    (sourceNames entries).Pairwise fun a b => Path.precedes a b = true := by
  have trans (as bs cs : List String) : Path.precedes as bs = true → Path.precedes bs cs = true →
      Path.precedes as cs = true := Path.precedes_trans
  exact List.pairwise_mergeSort trans Path.precedes_total _

theorem nodup_sourceNames (distinct : (entries.map Prod.fst).Nodup) :
    (sourceNames entries).Nodup :=
  (List.mergeSort_perm _ _).nodup_iff.mpr (distinct.filter _)

end Toolchain

namespace Plan

open Toolchain

variable {spec : Spec} {source : List UInt8} {policy : WritePolicy} {path : Path} {t : Template}
  {context : Context}

def packageFolders : List String :=
  ["actions", "triggers", "connection", "cmd", "server", "http", "types", vendorDirectory]

theorem not_go_of_folder {name : String} (folder : name ∈ packageFolders) :
    ¬ ".go".toList <:+ name.toList := by
  revert name
  decide

theorem Listed.dropLast_parts (slashless : spec.Slashless) (listed : Listed spec policy path) :
    ∀ part ∈ path.parts.dropLast, part ∈ packageFolders := by
  have package (kind : HandlerKind) : kind.package ∈ packageFolders := by
    cases kind <;> decide
  cases listed with
  | @declaration kind name member =>
    rw [declarationPath_eq _ (slashless name (Spec.mem_declared_of_handler kind member))]
    simp [package]
  | @stub kind name member =>
    rw [stubPath_eq _ (slashless name (Spec.mem_declared_of_handler kind member))]
    simp [package]
  | @route name member =>
    rw [routePath_eq (slashless name (Spec.mem_declared_of_handler .action member))]
    simp [packageFolders]
  | @customType name member =>
    rw [typePath_eq (slashless name (Spec.mem_declared_of_type member))]
    simp [packageFolders]
  | _ => decide

theorem isSource_of_go (front : List String) {name : String}
    (folders : Plan.vendorDirectory ∉ front) (ends : ".go".toList <:+ name.toList) :
    IsSource (front ++ [name]) := by
  refine ⟨⟨front, name, rfl, ends⟩, ?_⟩
  rw [List.mem_append, not_or, List.mem_singleton]
  refine ⟨folders, ?_⟩
  rintro rfl
  exact absurd ends (by decide)

theorem isSource_of_goFile (slashless : spec.Slashless) (file : GoFile spec path policy t context) :
    IsSource path.parts := by
  have ending (name : String) : ".go".toList <:+ (name ++ ".go").toList := by
    rw [String.toList_append]
    exact List.suffix_append _ _
  have ending_run (name : String) : ".go".toList <:+ (name ++ "_run.go").toList := by
    rw [String.toList_append]
    exact (by decide : ".go".toList <:+ "_run.go".toList).trans (List.suffix_append _ _)
  have package (kind : HandlerKind) : vendorDirectory ∉ [kind.package] := by
    cases kind <;> decide
  -- No name of the plugin is a directory on the way, so only the ending depends on it.
  cases file with
  | @declaration kind name _ entry =>
    rw [declarationPath_eq kind
      (slashless name (Spec.mem_declared_of_handler kind (List.mem_map_of_mem entry)))]
    exact isSource_of_go [kind.package] (package kind) (ending name)
  | @stub kind name _ entry =>
    rw [stubPath_eq kind
      (slashless name (Spec.mem_declared_of_handler kind (List.mem_map_of_mem entry)))]
    exact isSource_of_go [kind.package] (package kind) (ending_run name)
  | @route name _ entry =>
    rw [routePath_eq
      (slashless name (Spec.mem_declared_of_handler .action (List.mem_map_of_mem entry)))]
    exact isSource_of_go ["server", "http"] (by decide) (ending name)
  | @customType name _ entry =>
    rw [typePath_eq (slashless name (Spec.mem_declared_of_type (List.mem_map_of_mem entry)))]
    exact isSource_of_go ["types"] (by decide) (ending name)
  | connection => exact isSource_of_go ["connection"] (by decide) (ending "connection")
  | connect => exact isSource_of_go ["connection"] (by decide) (ending "connect")
  | cache => exact isSource_of_go ["connection"] (by decide) (ending "cache")
  | program => exact isSource_of_go ["cmd"] (by decide) (ending "main")
  | server => exact isSource_of_go ["server", "http"] (by decide) (ending "server")

theorem isSource_iff (slashless : spec.Slashless) (member : o ∈ outputs spec source) :
    IsSource o.path.parts ↔ o.isGo = true := by
  rcases goFile_or_build_of_mem member with ⟨t, context, _, file⟩ | build
  · exact iff_of_true (isSource_of_goFile slashless file) (isGo_of_goFile file rfl)
  · have other : o.isGo = false := not_isGo_of_build build
    rw [other]
    refine iff_of_false ?_ Bool.false_ne_true
    rintro ⟨⟨front, name, parts, ends⟩, _⟩
    have last : o.path.parts.getLast? = some name := by simp [parts]
    simp only [buildOutputs, List.mem_cons, List.not_mem_nil, or_false] at build
    rcases build with rfl | rfl | rfl | rfl
    all_goals
      cases last
      exact absurd ends (by decide)

end Plan

namespace Toolchain

variable {spec : Spec} {source : List UInt8} {workspace : Path} {before : FileTree}
  {report : Generate.Report} {names : List String}

/-! ## What stands below the root -/

def Vacant (t : FileTree) (place : Place) : Prop :=
  ∀ names, names ≠ [] → t.find? (place ++ names) = none

/-- What a run leaves below a root that was empty is planned, or was made on the way to the root. -/
theorem planned_of_stands {made : FileTree} {p : Generate.Progress}
    (regular : ∀ o ∈ os, Plan.Regular o.path) (vacant : Vacant before (root.place cwd))
    (above : root.makeDirs cwd before = (made, none))
    (ran : Generate.emitAll root cwd ⟨made, [], [], []⟩ os = (p, none)) (filled : names ≠ [])
    (stands : p.tree.find? (root.place cwd ++ names) ≠ none) :
    root.place cwd ++ names ∈ root.trail cwd ∨ ∃ o ∈ os, names <+: o.path.parts := by
  have changed := Generate.emitAll_changed root cwd ⟨made, [], [], []⟩ os
  rw [ran] at changed
  cases changed (root.place cwd ++ names) with
  | same unchanged =>
    rw [unchanged, (Path.makeDirs_eq_none above).find?] at stands
    split at stands
    · next member => exact .inl member
    · exact absurd (vacant names filled) stands
  | directory member =>
    obtain ⟨o, planned, inside⟩ := member
    rcases Output.mem_trail_cases (regular o planned) inside with member | ⟨front, inside, equal⟩
    · exact .inl member
    · have whole := inside.trans (List.dropLast_prefix o.path.parts)
      exact .inr ⟨o, planned, List.append_cancel_left equal ▸ whole⟩
  | file member =>
    obtain ⟨o, planned, equal⟩ := member
    rw [Output.place_eq (regular o planned)] at equal
    exact .inr ⟨o, planned, List.append_cancel_left equal ▸ List.prefix_rfl⟩

theorem stands_of_generate (slashless : spec.Slashless)
    (home : spec.outputRoot workspace = .ok root) (planned : spec.plan source = .ok os)
    (finished : (spec.generate source workspace cwd before).result = .ok report)
    (vacant : Vacant before (root.place cwd)) (filled : names ≠ []) :
    (spec.generate source workspace cwd before).tree.find? (root.place cwd ++ names) ≠ none ↔
      root.place cwd ++ names ∈ root.trail cwd ∨ ∃ o ∈ os, names <+: o.path.parts := by
  have regular := Spec.regular_of_plan slashless planned
  constructor
  · intro stands
    rw [Spec.generate_of_plan home planned] at finished stands
    obtain ⟨made, p, above, ended, same, _⟩ := Generate.write_eq_ok finished
    rw [same] at stands
    exact planned_of_stands regular vacant above ended filled stands
  · obtain ⟨made, p, above, ran, same, _⟩ := Spec.ran_of_generate slashless home planned finished
    rw [same]
    rintro (member | ⟨o, planned, inside⟩)
    · have passed := (Path.makeDirs_eq_none above).find?_of_mem member
      rw [ran.grows.directories _ passed]
      exact Option.some_ne_none _
    · exact (Generate.settled_of_ran ran planned).stands_of_inside (regular o planned) inside

/-- A directory on the way to the root lies below it, under the name of a Go file that is not planned or
too far down to be listed. -/
def Strays (root : Path) (cwd : Place) (os : List Output) : Prop :=
  ∃ names, root.place cwd ++ names ∈ root.trail cwd ∧
    ((IsSource names ∧ ∀ o ∈ os, o.path.parts ≠ names) ∨
      (root.join ⟨.relative, names⟩).isLong = true)

theorem IsSource.ne_nil (named : IsSource names) : names ≠ [] := by
  obtain ⟨⟨front, name, rfl, _⟩, _⟩ := named
  simp

theorem not_strays_of_down (down : ".." ∉ root.parts) (short : root.isLong = false) :
    ¬ Strays root cwd os := by
  rintro ⟨names, member, stray⟩
  obtain ⟨front, _, inside, same⟩ := Place.mem_trail_down down member
  rw [Path.place, walk_down down, List.append_assoc, List.append_cancel_left_eq] at same
  have below := inside.length_le
  rw [← same, List.length_append] at below
  have none : names = [] := List.eq_nil_of_length_eq_zero (by omega)
  subst none
  rcases stray with ⟨named, _⟩ | long
  · exact named.ne_nil rfl
  · rw [Path.join_of_relative rfl, List.append_nil, short] at long
    cases long

def sourcePath (root : Path) (names : List String) : Path := root.join ⟨.relative, names⟩

theorem sourcePath_injective (root : Path) : Function.Injective (sourcePath root) := by
  intro names names' same
  simpa [sourcePath, Path.join] using same

/-- The files are the planned Go files, each once, in the order of their paths, and no vendored code. -/
def ListsPlan (os : List Output) (root : Path) (files : List Path) : Prop :=
  ∃ listed : List (List String), files = listed.map (sourcePath root) ∧ listed.Nodup ∧
    (listed.Pairwise fun a b => Path.precedes a b = true) ∧
    (∀ names ∈ listed, Plan.vendorDirectory ∉ names) ∧
    ∀ names, names ∈ listed ↔ ∃ o ∈ os, o.isGo = true ∧ o.path = ⟨.relative, names⟩

theorem source_iff (slashless : spec.Slashless)
    (home : spec.outputRoot workspace = .ok root) (planned : spec.plan source = .ok os)
    (finished : (spec.generate source workspace cwd before).result = .ok report)
    (vacant : Vacant before (root.place cwd)) (names : List String) :
    names ∈ sourceNames ((spec.generate source workspace cwd before).tree.below (root.place cwd)) ↔
      (∃ o ∈ os, o.isGo = true ∧ o.path.parts = names) ∨
        root.place cwd ++ names ∈ root.trail cwd ∧ IsSource names := by
  have listed : ∀ o ∈ os, (IsSource o.path.parts ↔ o.isGo = true) ∧
      ∀ part ∈ o.path.parts.dropLast, part ∈ Plan.packageFolders := by
    obtain ⟨rfl, _⟩ := Spec.plan_eq_ok.mp planned
    exact fun o member => ⟨Plan.isSource_iff slashless member,
      (Plan.listed_of_mem member).dropLast_parts slashless⟩
  rw [mem_sourceNames, mem_below]
  constructor
  · rintro ⟨⟨filled, stands⟩, named⟩
    rcases (stands_of_generate slashless home planned finished vacant filled).mp stands with
      member | ⟨o, member, rest, parts⟩
    · exact .inr ⟨member, named⟩
    · -- The folders of a plan are not named like Go files.
      have whole : rest = [] := by
        by_contra more
        obtain ⟨⟨front, name, rfl, ends⟩, _⟩ := named
        have folder : name ∈ Plan.packageFolders := by
          apply (listed o member).2
          rw [← parts, List.dropLast_append_of_ne_nil more]
          simp
        exact Plan.not_go_of_folder folder ends
      rw [whole, List.append_nil] at parts
      exact .inl ⟨o, member, (listed o member).1.mp (parts ▸ named), parts.symm⟩
  · intro found
    have named : IsSource names := by
      rcases found with ⟨o, member, go, rfl⟩ | ⟨_, named⟩
      · exact (listed o member).1.mpr go
      · exact named
    refine ⟨⟨named.ne_nil, ?_⟩, named⟩
    rw [stands_of_generate slashless home planned finished vacant named.ne_nil]
    rcases found with ⟨o, member, _, rfl⟩ | ⟨member, _⟩
    · exact .inr ⟨o, member, List.prefix_rfl⟩
    · exact .inl member

theorem directory_of_generate (slashless : spec.Slashless) (home : spec.outputRoot workspace = .ok root)
    (planned : spec.plan source = .ok os)
    (finished : (spec.generate source workspace cwd before).result = .ok report) :
    root.hasNul = false ∧ root.Passable cwd (spec.generate source workspace cwd before).tree ∧
      (spec.generate source workspace cwd before).tree.find? (root.place cwd) = some .directory := by
  obtain ⟨made, p, _, ran, same, _⟩ := Spec.ran_of_generate slashless home planned finished
  have filled : os ≠ [] := by
    obtain ⟨rfl, _⟩ := Spec.plan_eq_ok.mp planned
    simp [Plan.outputs, Plan.connectionOutputs]
  obtain ⟨o, member⟩ := List.exists_mem_of_ne_nil os filled
  rw [same]
  exact Generate.root_of_settled (Spec.regular_of_plan slashless planned o member)
    (Generate.settled_of_ran ran member)

theorem directory_of_trail (slashless : spec.Slashless) (home : spec.outputRoot workspace = .ok root)
    (planned : spec.plan source = .ok os)
    (finished : (spec.generate source workspace cwd before).result = .ok report) {x : Place}
    (member : x ∈ root.trail cwd) :
    (spec.generate source workspace cwd before).tree.find? x = some .directory := by
  obtain ⟨made, p, above, ran, same, _⟩ := Spec.ran_of_generate slashless home planned finished
  rw [same]
  exact ran.grows.directories x ((Path.makeDirs_eq_none above).find?_of_mem member)

theorem planned_iff (regular : ∀ o ∈ os, Plan.Regular o.path) :
    (∃ o ∈ os, o.isGo = true ∧ o.path = ⟨.relative, names⟩) ↔
      ∃ o ∈ os, o.isGo = true ∧ o.path.parts = names := by
  refine exists_congr fun o => and_congr_right fun member => and_congr_right fun _ => ?_
  have relative := (regular o member).relative
  rw [← relative]
  cases o.path
  simp

theorem listable_of_generate (slashless : spec.Slashless) (proper : before.Proper)
    (home : spec.outputRoot workspace = .ok root) (planned : spec.plan source = .ok os)
    (finished : (spec.generate source workspace cwd before).result = .ok report)
    (vacant : Vacant before (root.place cwd)) :
    ¬ Unlistable root cwd (spec.generate source workspace cwd before).tree ↔
      ∀ names, root.place cwd ++ names ∈ root.trail cwd →
        (root.join ⟨.relative, names⟩).isLong = false := by
  have here := directory_of_generate slashless home planned finished
  have proper' := spec.proper_generate source workspace cwd proper
  constructor
  · intro listable names member
    cases names with
    | nil => simpa [Path.join] using here.2.1.1
    | cons name rest =>
      refine Bool.eq_false_iff.mpr fun long => listable (.inr ⟨here, name :: rest, ?_, long⟩)
      exact proper'.mem_below_iff.mpr ⟨List.cons_ne_nil name rest,
        directory_of_trail slashless home planned finished member⟩
  · rintro short (overlong | ⟨_, names, member, long⟩)
    · exact overlong.not_passable here.2.1
    · obtain ⟨filled, stands⟩ := proper'.mem_below_iff.mp member
      have found := (stands_of_generate slashless home planned finished vacant filled).mp
        (by simp [stands])
      rcases found with passed | ⟨o, listed, rest, parts⟩
      · rw [short names passed] at long
        cases long
      · -- What leads to a file that was written is shorter than its path.
        obtain ⟨_, p, _, ran, _⟩ := Spec.ran_of_generate slashless home planned finished
        have written := (Generate.settled_of_ran ran listed).passable.1
        have regular := Spec.regular_of_plan slashless planned o listed
        rw [Path.join_of_relative regular.relative, ← parts, ← List.append_assoc] at written
        rw [Path.join_of_relative rfl, Path.isLong_of_append written] at long
        cases long

/-- After a run that succeeds into an empty root, its sources can be listed and are exactly the planned Go
files, unless the way to the root has left a directory below it that is named like one or too far
down. -/
theorem sourceFiles_of_generate (slashless : spec.Slashless) (proper : before.Proper)
    (home : spec.outputRoot workspace = .ok root) (planned : spec.plan source = .ok os)
    (finished : (spec.generate source workspace cwd before).result = .ok report)
    (vacant : Vacant before (root.place cwd)) :
    (∃ files, sourceFiles root cwd (spec.generate source workspace cwd before).tree = .ok files ∧
      ListsPlan os root files) ↔ ¬ Strays root cwd os := by
  have regular := Spec.regular_of_plan slashless planned
  have found := source_iff slashless home planned finished vacant
  have listable := listable_of_generate slashless proper home planned finished vacant
  obtain ⟨clean, passable, here⟩ := directory_of_generate slashless home planned finished
  constructor
  · rintro ⟨files, answered, listed, same, _, _, _, members⟩ ⟨names, member, ⟨named, stray⟩ | long⟩
    · rw [sourceFiles_of_directory clean passable here] at answered
      split at answered
      · cases answered
      · cases answered
        have equal := List.map_injective_iff.mpr (sourcePath_injective root) same
        have inside : names ∈ listed := equal ▸ (found names).mpr (.inr ⟨member, named⟩)
        obtain ⟨o, planned, _, parts⟩ := (planned_iff regular).mp ((members names).mp inside)
        exact stray o planned parts
    · rw [listable.mp (exists_sourceFiles_iff.mp ⟨files, answered⟩) names member] at long
      cases long
  · intro fits
    have short : ∀ names, root.place cwd ++ names ∈ root.trail cwd →
        (root.join ⟨.relative, names⟩).isLong = false := fun names member =>
      Bool.eq_false_iff.mpr fun long => fits ⟨names, member, .inr long⟩
    obtain ⟨files, answered⟩ := exists_sourceFiles_iff.mpr (listable.mpr short)
    refine ⟨files, answered, ?_⟩
    rw [sourceFiles_of_directory clean passable here] at answered
    split at answered
    · cases answered
    cases answered
    have distinct := (spec.proper_generate source workspace cwd proper).nodup_below (root.place cwd)
    refine ⟨_, rfl, nodup_sourceNames distinct, pairwise_sourceNames _,
      fun names member => (mem_sourceNames.mp member).2.2, fun names => ?_⟩
    rw [found, planned_iff regular]
    refine or_iff_left_of_imp ?_
    -- What is on the way to the root is planned as well, as nothing strays.
    rintro ⟨member, named⟩
    by_contra missing
    refine fits ⟨names, member, .inl ⟨named, fun o inside parts => missing ⟨o, inside, ?_, parts⟩⟩⟩
    obtain ⟨rfl, _⟩ := Spec.plan_eq_ok.mp planned
    exact (Plan.isSource_iff slashless inside).mp (parts ▸ named)

/-- A run tries what it should exactly if it meets no path and no name that is too long; and after a run of
the generator into an empty root the formatter is run on the planned Go files, each once, exactly if no
directory strays among them. -/
theorem formats_and_vendors (tools : Toolchain) (starts : tools.config.vendorInit ≠ [])
    (updates : tools.config.vendorUpdate ≠ []) :
    (∀ (root : Path) (cwd : Place) (t : FileTree) (es : Endings),
      (tools.Works root cwd t es ↔ ¬ Unlistable root cwd t ∧
        ¬ (Formats root cwd t es ∧ Unsearchable root cwd t tools.config.vendorManifests)) ∧
      (¬ tools.Works root cwd t es →
        ∃ path, (tools.run root cwd t es).result = .error (.defect (.system .nameTooLong path)) ∧
          ∀ files, sourceFiles root cwd t = .ok files →
            (tools.run root cwd t es).commands = files.map tools.formatCommand)) ∧
    ∀ (spec : Spec) (source : List UInt8) (workspace root : Path) (cwd : Place) (before : FileTree)
      (report : Generate.Report) (os : List Output), spec.Slashless → before.Proper →
      spec.outputRoot workspace = .ok root → spec.plan source = .ok os →
      (spec.generate source workspace cwd before).result = .ok report →
      Vacant before (root.place cwd) →
      let after := (spec.generate source workspace cwd before).tree
      ((∃ files, sourceFiles root cwd after = .ok files ∧ ListsPlan os root files) ↔
        ¬ Strays root cwd os) ∧
      (".." ∉ root.parts → ∃ files, sourceFiles root cwd after = .ok files ∧
        ListsPlan os root files) := by
  refine ⟨fun root cwd t es => ⟨works_iff starts updates, run_of_not_works starts updates⟩, ?_⟩
  intro spec source workspace root cwd before report os slashless proper home planned finished vacant
  have exactly_ := sourceFiles_of_generate slashless proper home planned finished vacant
  have short := (directory_of_generate slashless home planned finished).2.1.1
  exact ⟨exactly_, fun down => exactly_.mpr (not_strays_of_down down short)⟩

def standard : Toolchain := ⟨{}, "p"⟩

theorem vacant_empty (place : Place) : Vacant .empty place := by
  intro names filled
  simp [FileTree.empty, find?, filled]

theorem sourceFiles_empty : sourceFiles ⟨.relative, []⟩ [] .empty = .ok [] := by
  have passable : (⟨.relative, []⟩ : Path).Passable [] .empty := ⟨by decide, trivial⟩
  rw [sourceFiles_of_directory rfl passable rfl]
  simp [unlisted?, sourceNames, below, FileTree.empty]

theorem formats_and_vendors_posting :
    standard.config.vendorInit ≠ [] ∧ standard.config.vendorUpdate ≠ [] ∧
      standard.Works ⟨.relative, []⟩ [] .empty (Endings.ofList [.notFound]) ∧
      ∃ files, sourceFiles ⟨.relative, ["p"]⟩ []
          ((Spec.posting "post").generate [] ⟨.relative, []⟩ [] .empty).tree = .ok files ∧
        ListsPlan (Plan.outputs (Spec.posting "post") []) ⟨.relative, ["p"]⟩ files := by
  obtain ⟨runs, sources⟩ := formats_and_vendors standard (by decide) (by decide)
  refine ⟨by decide, by decide, ?_, ?_⟩
  · refine (runs _ _ _ _).1.mpr ⟨exists_sourceFiles_iff.mp ⟨_, sourceFiles_empty⟩, ?_⟩
    rintro ⟨_, unsearchable⟩
    obtain ⟨name, _, refused⟩ := anyExists_of_unsearchable unsearchable
    have answered :
        anyExists ⟨.relative, []⟩ [] .empty standard.config.vendorManifests = .ok false := by
      decide
    rw [answered] at refused
    cases refused
  · have planned : (Spec.posting "post").plan [] = .ok (Plan.outputs (Spec.posting "post") []) :=
      Spec.plan_eq_ok.mpr ⟨rfl, by decide +kernel⟩
    have finished :
        ((Spec.posting "post").generate [] ⟨.relative, []⟩ [] .empty).result.toOption.isSome =
          true := by
      decide +kernel
    obtain ⟨report, finished⟩ := Spec.exists_ok_of_isSome finished
    exact (sources _ [] ⟨.relative, []⟩ ⟨.relative, ["p"]⟩ [] .empty report _ (by decide) (by decide)
      (by rfl) planned finished (vacant_empty _)).2 (by decide)

theorem overlong_letters {n : Nat} (long : longestName < n) :
    ((⟨.relative, []⟩ : Path).child (letters n)).Overlong [] .empty := by
  have plain : PlainName (letters n) := plainName_letters (Nat.lt_trans (by decide) long)
  rw [← utf8ByteSize_letters n] at long
  rw [show (⟨.relative, []⟩ : Path).child (letters n) = ⟨.relative, [letters n]⟩ from plain.inDirectory []]
  exact ⟨by simp [Path.hasNul, nul_not_mem_letters], .inr ⟨[], letters n, [], rfl, trivial, rfl, plain.ne_up, long⟩⟩

/-- Tools that take a file for a manifest whose name no directory can hold. -/
def overreaching : Toolchain := ⟨{ vendorManifests := [letters 256] }, "p"⟩

theorem exists_straying : ∃ spec report os, Spec.Accepted "name: x\n" "p/x.go/.." spec ∧
    spec.Slashless ∧ spec.outputRoot ⟨.relative, []⟩ = .ok ⟨.relative, ["p", "x.go", ".."]⟩ ∧
    spec.plan [] = .ok os ∧
    (spec.generate [] ⟨.relative, []⟩ [] .empty).result = .ok report ∧
    Strays ⟨.relative, ["p", "x.go", ".."]⟩ [] os := by
  have passed : (Spec.parse (.text "name: x\n") "p/x.go/.." "").toOption.any (fun declared =>
      declared.enrich.toOption.any fun spec =>
        decide spec.Slashless &&
        (spec.plan []).toOption.any (fun os => os.all fun o => o.path.parts ≠ ["x.go"]) &&
        (spec.outputRoot ⟨.relative, []⟩).toOption.any
          (· = ⟨.relative, ["p", "x.go", ".."]⟩) &&
        (spec.generate [] ⟨.relative, []⟩ [] .empty).result.toOption.isSome) = true := by
    decide +kernel
  obtain ⟨declared, spec, parsed, enriched, passed⟩ := Spec.exists_enriched_of_any passed
  simp only [Bool.and_eq_true, decide_eq_true_eq] at passed
  obtain ⟨⟨⟨slashless, planned⟩, rooted⟩, finished⟩ := passed
  obtain ⟨os, planned, apart⟩ := Spec.exists_ok_of_any planned
  obtain ⟨root, rooted, same⟩ := Spec.exists_ok_of_any rooted
  obtain ⟨report, finished⟩ := Spec.exists_ok_of_isSome finished
  rw [of_decide_eq_true same] at rooted
  refine ⟨spec, report, os, ⟨"", declared, parsed, enriched⟩, slashless, rooted, planned, finished,
    ["x.go"], by decide, .inl ⟨Plan.isSource_of_go [] (by decide) (by decide), ?_⟩⟩
  simpa using apart

/-- The tools look up a name that is too long, and list a directory as a source. -/
theorem not_formats_and_vendors :
    (¬ ∀ (tools : Toolchain) (root : Path) (cwd : Place) (t : FileTree) (es : Endings),
      tools.config.formatter ≠ [] → tools.config.vendorInit ≠ [] → tools.config.vendorUpdate ≠ [] →
      tools.Works root cwd t es) ∧
    ¬ ∀ (document packageRoot : String) (spec : Spec) (source : List UInt8) (workspace root : Path)
      (cwd : Place) (before : FileTree) (report : Generate.Report) (os : List Output),
      Spec.Accepted document packageRoot spec → spec.Slashless → before.Proper →
      spec.outputRoot workspace = .ok root → spec.plan source = .ok os →
      (spec.generate source workspace cwd before).result = .ok report →
      Vacant before (root.place cwd) →
      ∃ files, sourceFiles root cwd (spec.generate source workspace cwd before).tree = .ok files ∧
        ListsPlan os root files := by
  constructor
  · intro claim
    have works := claim overreaching ⟨.relative, []⟩ [] .empty (Endings.ofList []) (by decide)
      (by decide) (by decide)
    have unsearchable : Unsearchable ⟨.relative, []⟩ [] .empty overreaching.config.vendorManifests :=
      ⟨[], letters 256, [], rfl, by simp, overlong_letters (by decide)⟩
    refine ((works_iff (by decide) (by decide)).mp works).2 ⟨fun files listed => ?_, unsearchable⟩
    rw [sourceFiles_empty] at listed
    cases listed
    exact fun i inside => absurd inside (Nat.not_lt_zero i)
  · intro claim
    obtain ⟨spec, report, os, accepted, slashless, home, planned, finished, strays⟩ := exists_straying
    have exactly_ :=
      sourceFiles_of_generate slashless (by decide) home planned finished (vacant_empty _)
    exact exactly_.mp (claim _ _ spec [] _ _ [] .empty report os accepted slashless (by decide)
      home planned finished (vacant_empty _)) strays

end Toolchain

end PluginCompiler
