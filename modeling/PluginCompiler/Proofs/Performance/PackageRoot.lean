import PluginCompiler.Proofs.Emit.Packages
import PluginCompiler.Proofs.Generate.Containment
import PluginCompiler.Proofs.Performance.Screen
import PluginCompiler.Proofs.Plan.Comments
import PluginCompiler.Proofs.Spec.Root
import PluginCompiler.Proofs.Toolchain.Commands

/-! The package root in a generated tree: in the imports of its files, in its image and in what the
formatter is told. It is the root of the spec everywhere, and so the name of the tree's directory as
long as no slash stands at either end of it. -/

set_option autoImplicit false

namespace PluginCompiler

namespace Emit

theorem mem_imageLines {root : String} {spec : Spec} :
    "WORKDIR /go/src/" ++ root ∈ imageLines spec ↔ root = spec.packageRoot := by
  have own : Go.lead ("WORKDIR /go/src/" ++ root) = some 'W' := by simp [Go.lead]
  have first : Each (Go.lead · ≠ some 'W') ((imageLines spec).take 1) := by simp [imageLines, Go.lead]
  have rest : Each (Go.lead · ≠ some 'W') ((imageLines spec).drop 2) := by simp [imageLines, Go.lead]
  have split : imageLines spec = (imageLines spec).take 1 ++
      ("WORKDIR /go/src/" ++ spec.packageRoot) :: (imageLines spec).drop 2 := rfl
  rw [split, List.mem_append, List.mem_cons, or_iff_right (first.not_mem own),
    or_iff_left (rest.not_mem own), String.append_right_inj]

end Emit

namespace Plan

open Emit

variable {spec enriched : Spec} {path : Path} {policy : WritePolicy} {t : Template}
  {context : Context} {ls : List String}

theorem rootedIn_of_goFile (ok : spec.enrich = .ok enriched)
    (file : GoFile enriched path policy t context) (filled : t.lines context = .ok ls) :
    RootedIn enriched.packageRoot ls := by
  have own (kind : HandlerKind) {key : String} {h : Handler}
      (entry : (key, h) ∈ (enriched.handlers kind).entries) : h.packageRoot = enriched.packageRoot := by
    obtain ⟨_, _, becomes⟩ := Spec.enriched_handler_of_ok ok entry
    rw [becomes.packageRoot, (Spec.enriched_of_ok ok).rest]
  -- Neither the stub that connects nor the cache has a block of imports.
  cases file with
  | @declaration kind _ h entry =>
    cases filled
    exact own kind entry ▸ rootedIn_handlerLines kind h
  | @stub kind _ h entry =>
    cases filled
    exact rootedIn_stubLines kind h
  | connection =>
    cases filled
    exact rootedIn_connectionLines enriched
  | connect =>
    cases filled
    exact rootedIn_of_not_mem (by decide)
  | cache =>
    cases filled
    exact rootedIn_of_not_mem (by decide)
  | program =>
    cases filled
    exact rootedIn_programLines enriched
  | server =>
    cases filled
    exact rootedIn_serverLines enriched
  | @route _ h entry =>
    cases filled
    exact own .action entry ▸ rootedIn_routeLines h
  | @customType _ type entry =>
    cases filled
    exact rootedIn_typeLines type enriched

theorem image_of_mem {source : List UInt8} {o : Output} (member : o ∈ outputs spec source)
    (body : o.body = .template .image context) (written : o.lines? = some ls) :
    ls = imageLines spec := by
  rcases goFile_or_build_of_mem member with ⟨t, context', body', file⟩ | build
  · rw [body] at body'
    cases body'
    generalize o.path = path, o.policy = policy at file
    cases file
  · simp only [buildOutputs, List.mem_cons, List.not_mem_nil, or_false] at build
    rcases build with rfl | rfl | rfl | rfl
    · cases written
      rfl
    · cases body
    · cases body
    · cases body

end Plan

namespace Spec

variable {spec declared : Spec} {source : Source} {content : List UInt8} {workspace : Path}
  {cwd : Place} {before : FileTree} {report : Generate.Report} {os : List Output}
  {asked location name : String}

/-- Wherever a generated tree tells the root of its packages, it is a given name. -/
structure RootAgrees (spec : Spec) (os : List Output) (name : String) : Prop where
  imports : ∀ o ∈ os, o.isGo = true → ∀ ls, o.lines? = some ls →
    ∀ root, ∀ package ∈ Emit.ownPackages, Go.ImportsUnder root package ls → root = name
  image : ∀ o ∈ os, ∀ context, o.body = .template .image context → ∀ ls, o.lines? = some ls →
    ∀ root, "WORKDIR /go/src/" ++ root ∈ ls → root = name
  sources : ∀ screen host config workspace content, ∀ p : Performance, p.commands = [] →
    ∀ c ∈ (p.write screen host config workspace spec content).commands,
      c.directory = none → ∃ file, c.words = config.formatter ++ ["-srcdir", name, file]

theorem commands_of_runTools {p : Performance} {screen : Screen} {host : Host} {tools : Toolchain}
    {root : Path} {c : Command} (member : c ∈ (p.runTools screen host tools root).commands)
    (here : c.directory = none) :
    ∃ file, c.words = tools.config.formatter ++ ["-srcdir", tools.packageRoot, file] := by
  have tried : c ∈ (tools.run root host.environment.cwd p.tree host.endings).commands := by
    rw [Performance.runTools] at member
    split at member
    · exact member
    · rwa [Performance.fail_commands] at member
  rcases Toolchain.mem_commands tried with ⟨file, rfl⟩ | elsewhere
  · exact ⟨file.toString, rfl⟩
  · rw [here] at elsewhere
    cases elsewhere

theorem commands_of_write {p : Performance} {screen : Screen} {host : Host} {config : Config}
    {c : Command} (idle : p.commands = [])
    (member : c ∈ (p.write screen host config workspace spec content).commands)
    (here : c.directory = none) :
    ∃ file, c.words = config.formatter ++ ["-srcdir", spec.packageRoot, file] := by
  rw [Performance.write] at member
  split at member
  · rw [Performance.fail_commands, Performance.log_commands, idle] at member
    cases member
  · rw [Performance.andThen] at member
    split at member
    · rw [Performance.tell_commands, Performance.log_commands, idle] at member
      cases member
    · split at member
      · exact commands_of_runTools member here
      · rw [Performance.tell_commands, Performance.tell_commands, Performance.log_commands, idle] at member
        cases member

theorem rootAgrees_iff (ok : declared.enrich = .ok spec) (planned : spec.plan content = .ok os) :
    spec.RootAgrees os name ↔ spec.packageRoot = name := by
  obtain ⟨rfl, _⟩ := plan_eq_ok.mp planned
  constructor
  · intro agrees
    -- The command of the plugin always imports a package of its own.
    have file : Plan.GoFile spec (Plan.inDirectory ["cmd"] "main.go") .always .program
        { spec := some spec } := .program
    obtain ⟨o, member, same, _, body⟩ := Plan.exists_of_goFile content file
    have written : o.lines? = some (Emit.programLines spec) := by
      rw [Output.lines?, body]
      rfl
    have go : o.isGo = true := Plan.isGo_of_goFile file same
    exact agrees.imports o member go _ written _ "connection" (by decide)
      (Emit.importsUnder_programLines spec)
  · rintro rfl
    refine ⟨fun o member go ls written root package own imports => ?_,
      fun o member context body ls written root line => ?_,
      fun screen host config workspace content p idle c member here =>
        commands_of_write idle member here⟩
    · obtain ⟨t, context, body, file⟩ := Plan.goFile_of_mem member go
      obtain ⟨ls', filled⟩ := Plan.lines_of_goFile file
      have same := Plan.lines?_of_goFile body filled
      rw [written] at same
      cases same
      exact (Plan.rootedIn_of_goFile ok file filled).root_eq own imports
    · rw [Plan.image_of_mem member body written] at line
      exact Emit.mem_imageLines.mp line

theorem root_of_generate
    (finished : (spec.generate content workspace cwd before).result = .ok report) :
    spec.rootName ≠ "" ∧ report.root = workspace.child spec.rootName ∧
      ∃ os, spec.plan content = .ok os := by
  obtain ⟨root, os, home, planned⟩ := generate_eq_ok finished
  rw [generate_of_plan home planned] at finished
  obtain ⟨_, _, _, _, _, reported⟩ := Generate.write_eq_ok finished
  rw [outputRoot] at home
  split at home
  · cases home
  · next named =>
    have place : workspace.child spec.rootName = root := Except.ok.inj home
    exact ⟨named, by rw [reported, place], os, planned⟩

/-- The name of the directory has no slashes at its ends. The packages of the generated tree are under
that name exactly if a root that was asked for does not start with a slash, or one of the document
neither starts nor ends with one. -/
theorem root_agrees_iff (source : Source) (asked location : String) (declared spec : Spec)
    (content : List UInt8) (workspace : Path) (cwd : Place) (before : FileTree)
    (report : Generate.Report) (parsed : parse source asked location = .ok declared)
    (enriched : declared.enrich = .ok spec)
    (finished : (spec.generate content workspace cwd before).result = .ok report) :
    ∃ text data entries os, source.toText = .ok text ∧ dataOf text = .ok data ∧
      data.opened = .map entries ∧ spec.packageRoot = effectiveRoot asked entries ∧
      spec.plan content = .ok os ∧
      report.root = workspace.child spec.rootName ∧ Unslashed spec.rootName ∧
      (spec.RootAgrees os spec.rootName ↔
        if asked = "" then Unslashed (effectiveRoot "" entries) else asked.toList.head? ≠ some '/') := by
  obtain ⟨text, data, decoded, read, accepted⟩ := parse_eq_ok parsed
  obtain ⟨entries, opened, given⟩ := packageRoot_of_ofData accepted
  have kept : spec.packageRoot = declared.packageRoot := by rw [(enriched_of_ok enriched).rest]
  obtain ⟨named, home, os, planned⟩ := root_of_generate finished
  have filled : effectiveRoot asked entries ≠ "" := by
    intro empty
    rw [given, empty] at kept
    exact named (by rw [rootName, kept]; rfl)
  refine ⟨text, data, entries, os, decoded, read, opened, kept.trans given, planned, home,
    unslashed_rootName spec, ?_⟩
  rw [rootAgrees_iff enriched planned, packageRoot_eq_rootName_iff, kept, given,
    unslashed_effectiveRoot_iff filled]

/-- A root that is asked for with a slash at its end. -/
theorem root_agrees_iff_posted : ∃ declared spec report os,
    parse (.text "name: x\n") "p/" "" = .ok declared ∧ declared.enrich = .ok spec ∧
      (spec.generate [] ⟨.relative, []⟩ [] .empty).result = .ok report ∧ spec.plan [] = .ok os ∧
      report.root = ⟨.relative, ["p"]⟩ ∧ spec.RootAgrees os "p" := by
  have passed : (parse (.text "name: x\n") "p/" "").toOption.any (fun declared =>
      declared.enrich.toOption.any fun spec => decide (spec.rootName = "p") &&
        (spec.generate [] ⟨.relative, []⟩ [] .empty).result.toOption.isSome) = true := by
    decide +kernel
  obtain ⟨declared, spec, parsed, enriched, passed⟩ := exists_enriched_of_any passed
  simp only [Bool.and_eq_true, decide_eq_true_eq] at passed
  obtain ⟨report, finished⟩ := exists_ok_of_isSome passed.2
  obtain ⟨_, _, _, os, _, _, _, _, planned, home, _, agrees⟩ := root_agrees_iff (.text "name: x\n") "p/" ""
    declared spec [] ⟨.relative, []⟩ [] .empty report parsed enriched finished
  rw [passed.1] at home agrees
  exact ⟨declared, spec, report, os, parsed, enriched, finished, planned, home,
    agrees.mpr (by rw [if_neg (by decide)]; decide)⟩

theorem exists_torn {document asked : String}
    (passed : (parse (.text document) asked "").toOption.any (fun declared =>
      declared.enrich.toOption.any fun spec => decide (spec.packageRoot ≠ spec.rootName) &&
        (spec.generate [] ⟨.relative, []⟩ [] .empty).result.toOption.isSome) = true) :
    ∃ spec report os, Accepted document asked spec ∧
      (spec.generate [] ⟨.relative, []⟩ [] .empty).result = .ok report ∧ spec.plan [] = .ok os ∧
      ¬ spec.RootAgrees os spec.rootName := by
  obtain ⟨declared, spec, parsed, enriched, passed⟩ := exists_enriched_of_any passed
  simp only [Bool.and_eq_true, decide_eq_true_eq] at passed
  obtain ⟨report, finished⟩ := exists_ok_of_isSome passed.2
  obtain ⟨_, os, _, planned⟩ := generate_eq_ok finished
  exact ⟨spec, report, os, ⟨"", declared, parsed, enriched⟩, finished, planned,
    fun agrees => passed.1 ((rootAgrees_iff enriched planned).mp agrees)⟩

/-- A root of a document keeps the slash at its end, and one that is asked for the slash at its start. -/
theorem not_root_agrees :
    (¬ ∀ (document : String) (spec : Spec) (content : List UInt8) (workspace : Path) (cwd : Place)
      (before : FileTree) (report : Generate.Report) (os : List Output), Accepted document "" spec →
      (spec.generate content workspace cwd before).result = .ok report →
      spec.plan content = .ok os → spec.RootAgrees os spec.rootName) ∧
    ¬ ∀ (document asked : String) (spec : Spec) (content : List UInt8) (workspace : Path) (cwd : Place)
      (before : FileTree) (report : Generate.Report) (os : List Output), asked ≠ "" →
      Accepted document asked spec → (spec.generate content workspace cwd before).result = .ok report →
      spec.plan content = .ok os → spec.RootAgrees os spec.rootName := by
  constructor
  · intro claim
    obtain ⟨spec, report, os, accepted, finished, planned, torn⟩ :
        ∃ spec report os, Accepted "package_root: p/\n" "" spec ∧ _ := exists_torn (by decide +kernel)
    exact torn (claim _ spec [] _ [] .empty report os accepted finished planned)
  · intro claim
    obtain ⟨spec, report, os, accepted, finished, planned, torn⟩ :
        ∃ spec report os, Accepted "name: x\n" "/p" spec ∧ _ := exists_torn (by decide +kernel)
    exact torn (claim _ "/p" spec [] _ [] .empty report os (by decide) accepted finished planned)

end Spec

end PluginCompiler
