import PluginCompiler.Proofs.Generate.Preview
import PluginCompiler.Proofs.Performance.CrashLog
import PluginCompiler.Proofs.Performance.Screen
import PluginCompiler.Proofs.Text.Characters
import PluginCompiler.Proofs.Yaml.Loading

/-! A plan as a preview of a run. Both work out the same before anything is written, and fail there
with the same abort; from there on the plan lists the outputs that the run goes on to write or keep. -/

set_option autoImplicit false

namespace PluginCompiler

open FileTree
open Plan (PlainName letters plainName_letters toList_letters utf8ByteSize_letters
  nul_not_mem_letters)

namespace Performance

/-- What a plan and a run have worked out before anything is written. -/
structure Prepared where
  config : Config
  workspace : Path
  spec : Spec
  source : List UInt8
  root : Path
  outputs : List Output

def prepare (host : Host) (file : Path) (packageRoot : String) (flags : Config.Flags) :
    Except Abort Prepared :=
  if file.hasNul then .error (.defect .nulInPath)
  else
    match configure host flags with
    | .error abort => .error abort
    | .ok (config, workspace) =>
      match Spec.loadEnriched file packageRoot host.environment.cwd host.tree with
      | .error abort => .error abort
      | .ok (spec, source) =>
        match planned spec source workspace with
        | .error failure => .error (.failure failure)
        | .ok (root, os) => .ok ⟨config, workspace, spec, source, root, os⟩

def Prepared.outcome (p : Prepared) (host : Host) : Generate.Outcome :=
  Generate.write p.root p.outputs host.environment.cwd host.tree

variable {screen : Screen} {host : Host} {file package : String} {workspace : Option String}
  {p : Prepared} {abort : Abort}

theorem planned_eq_ok {spec : Spec} {source : List UInt8} {workspace root : Path} {os : List Output} :
    planned spec source workspace = .ok (root, os) ↔
      spec.outputRoot workspace = .ok root ∧ spec.plan source = .ok os := by
  rw [planned]
  cases spec.outputRoot workspace with
  | error failure => simp
  | ok root' => cases spec.plan source <;> simp [Except.map]

theorem planned_eq_error {spec : Spec} {source : List UInt8} {workspace : Path} {failure : Failure}
    (failed : planned spec source workspace = .error failure) (cwd : Place) (t : FileTree) :
    spec.generate source workspace cwd t = ⟨t, [], .error (.failure failure)⟩ := by
  rw [planned] at failed
  rw [Spec.generate]
  cases home : spec.outputRoot workspace with
  | error failure' =>
    rw [home] at failed
    cases failed
    rfl
  | ok root =>
    rw [home] at failed
    cases listed : spec.plan source with
    | error failure' =>
      rw [listed] at failed
      cases failed
      rfl
    | ok os => simp [listed, Except.map] at failed

def start (host : Host) : Performance := { tree := host.tree }

/-- What a run says before it reads its spec can be shown. -/
def Heard (screen : Screen) (host : Host) (file : Path) (flags : Config.Flags) : Prop :=
  ∀ config workspace, configure host flags = .ok (config, workspace) →
    ∀ m ∈ loadingNotes workspace file, screen.Takes m

theorem heard_of_calm (calm : screen.Calm) (file : Path) (flags : Config.Flags) :
    Heard screen host file flags :=
  fun _ _ _ m _ => calm.takes m

theorem perform_plan_of_prepare (screen : Screen) (host : Host) (file package : String)
    (workspace : Option String) : (Task.plan file package workspace).perform screen host =
      match prepare host (.ofString file) package ⟨workspace, false⟩ with
      | .error abort => (start host).fail screen [] abort
      | .ok p =>
        match Plan.table p.root p.outputs host.environment.cwd host.tree with
        | .error defect => (start host).fail screen [] (.defect defect)
        | .ok table => (start host).display screen (some table) := by
  by_cases nul : (Path.ofString file).hasNul = true
  · simp only [prepare, Task.perform, Task.file, nul, ↓reduceIte]
    rfl
  have performed : (Task.plan file package workspace).perform screen host =
      plan screen host (.ofString file) package ⟨workspace, false⟩ := if_neg nul
  rw [performed, prepare, if_neg nul, plan]
  cases configured : configure host ⟨workspace, false⟩ with
  | error abort => rfl
  | ok settings =>
    obtain ⟨config, directory⟩ := settings
    dsimp only
    cases loaded : Spec.loadEnriched (.ofString file) package host.environment.cwd host.tree with
    | error abort => rfl
    | ok document =>
      obtain ⟨spec, source⟩ := document
      dsimp only
      cases planned spec source directory with
      | error failure => rfl
      | ok outputs => rfl

theorem perform_generate_of_prepare (package : String) {flags : Config.Flags}
    (heard : Heard screen host (.ofString file) flags) :
    ∃ said, (∀ text, .error text ∉ said) ∧
      match prepare host (.ofString file) package flags with
      | .error abort => (Task.generate file package flags.workspace flags.skipToolchain).perform screen
          host = { start host with messages := said }.fail screen [] abort
      | .ok p =>
        p.spec.outputRoot p.workspace = .ok p.root ∧ p.spec.plan p.source = .ok p.outputs ∧
          (Task.generate file package flags.workspace flags.skipToolchain).perform screen host =
            { start host with messages := said }.write screen host p.config p.workspace p.spec p.source := by
  by_cases nul : (Path.ofString file).hasNul = true
  · refine ⟨[], fun _ => nofun, ?_⟩
    simp only [prepare, Task.perform, Task.file, nul, ↓reduceIte]
    rfl
  have performed : (Task.generate file package flags.workspace flags.skipToolchain).perform screen host =
      generate screen host (.ofString file) package flags := if_neg nul
  rw [performed, prepare, if_neg nul, generate]
  cases configured : configure host flags with
  | error abort => exact ⟨[], fun _ => nofun, rfl⟩
  | ok settings =>
    obtain ⟨config, directory⟩ := settings
    refine ⟨loadingNotes directory (.ofString file), fun text => by simp [loadingNotes], ?_⟩
    dsimp only
    rw [tell_of_takes (heard config directory configured), andThen_of_going rfl]
    cases loaded : Spec.loadEnriched (.ofString file) package host.environment.cwd host.tree with
    | error abort => rfl
    | ok document =>
      obtain ⟨spec, source⟩ := document
      dsimp only
      cases listed : planned spec source directory with
      | error failure =>
        simp only [write, planned_eq_error listed, log_nil]
        rfl
      | ok outputs =>
        obtain ⟨home, planned⟩ := planned_eq_ok.mp listed
        exact ⟨home, planned, rfl⟩

theorem plan_of_table {table : Table} (shows : screen.Shows table)
    (prepared : prepare host (.ofString file) package ⟨workspace, false⟩ = .ok p)
    (listed : Plan.table p.root p.outputs host.environment.cwd host.tree = .ok table) :
    (Task.plan file package workspace).perform screen host =
      { tree := host.tree, table := some table } := by
  rw [perform_plan_of_prepare, prepared]
  dsimp only
  rw [listed]
  exact display_of_shows shows _

@[simp] theorem runTools_tree (p : Performance) (screen : Screen) (host : Host) (tools : Toolchain)
    (root : Path) : (p.runTools screen host tools root).tree = p.tree := by
  rw [runTools]
  split <;> simp

@[simp] theorem write_tree (p : Performance) (screen : Screen) (host : Host) (config : Config)
    (workspace : Path) (spec : Spec) (source : List UInt8) :
    (p.write screen host config workspace spec source).tree =
      (spec.generate source workspace host.environment.cwd host.tree).tree := by
  rw [write]
  split
  · simp
  · refine andThen_tree (by simp) ?_
    split <;> simp

theorem write_abort {spec : Spec} {source : List UInt8} {workspace : Path} (p : Performance)
    (screen : Screen) (config : Config)
    (failed : (spec.generate source workspace host.environment.cwd host.tree).result = .error abort) :
    (p.write screen host config workspace spec source).abort = some (screen.ending [] abort) := by
  simp only [write, failed, fail_abort]

/-- What a plan says of a run that goes on to write. It crashes at a name that is too long for a
directory that is there; otherwise it lists the outputs, as they are found before the run. -/
structure Previews (screen : Screen) (host : Host) (p : Prepared) (look run : Performance) : Prop where
  outcome : p.spec.generate p.source p.workspace host.environment.cwd host.tree = p.outcome host
  left : run.tree = (p.outcome host).tree
  failed : ∀ abort, (p.outcome host).result = .error abort →
    run.abort = some (screen.ending [] abort)
  listed : (∀ o ∈ p.outputs, ¬ o.Hidden p.root host.environment.cwd host.tree) →
    look = (start host).display screen (some (Plan.listing p.root p.outputs fun o =>
      o.Spared p.root host.environment.cwd host.tree))
  crashed : (∃ o ∈ p.outputs, o.Hidden p.root host.environment.cwd host.tree) →
    ∃ o ∈ p.outputs, o.Hidden p.root host.environment.cwd host.tree ∧
      look.abort = some (.defect (.system .nameTooLong (p.root.join o.path).toString))
  aside : p.spec.Slashless → ∀ o ∈ p.outputs,
    ¬ host.LogsAt (o.place p.root host.environment.cwd)
  finished : p.spec.Slashless → host.tree.Rooted → ∀ report,
    (p.outcome host).result = .ok report →
      (∀ o ∈ p.outputs, ¬ o.Hidden p.root host.environment.cwd host.tree) ∧
      ((report.written = (p.outputs.filter fun o =>
            ¬ o.Spared p.root host.environment.cwd host.tree).map Output.path ∧
          report.kept = (p.outputs.filter fun o =>
            o.Spared p.root host.environment.cwd host.tree).map Output.path) ↔
        p.root.Passable host.environment.cwd host.tree ∨ report.kept = [])

theorem previews_of_prepare (heard : Heard screen host (.ofString file) ⟨workspace, false⟩)
    (prepared : prepare host (.ofString file) package ⟨workspace, false⟩ = .ok p) :
    Previews screen host p ((Task.plan file package workspace).perform screen host)
      ((Task.generate file package workspace false).perform screen host) := by
  have look := perform_plan_of_prepare screen host file package workspace
  obtain ⟨said, _, ran⟩ := perform_generate_of_prepare package heard
  rw [prepared] at look ran
  dsimp only at look
  obtain ⟨home, planned, run⟩ := ran
  have outcome : p.spec.generate p.source p.workspace host.environment.cwd host.tree =
      p.outcome host := Spec.generate_of_plan home planned host.tree
  refine ⟨outcome, ?_, fun abort failed => ?_, fun seen => ?_, fun hidden => ?_,
    fun slashless o member => ?_, fun slashless rooted report finished => ?_⟩
  · rw [run, write_tree, outcome]
  · rw [← outcome] at failed
    rw [run, write_abort _ screen p.config failed]
  · rw [look, Plan.table_eq_ok.mpr ⟨seen, rfl⟩]
  · cases listed : Plan.table p.root p.outputs host.environment.cwd host.tree with
    | ok table =>
      obtain ⟨o, member, hides⟩ := hidden
      exact absurd hides ((Plan.table_eq_ok.mp listed).1 o member)
    | error defect =>
      rw [look, listed]
      obtain ⟨o, member, hides, rfl⟩ := Plan.table_eq_error listed
      exact ⟨o, member, hides, rfl⟩
  · obtain ⟨same, _⟩ := Spec.plan_eq_ok.mp planned
    exact Host.not_logsAt_of_listed slashless (Plan.listed_of_mem (same ▸ member))
  · rw [← outcome] at finished
    -- A run that succeeds has reached every output, so none of them was hidden.
    have completed := Spec.completed_of_generate slashless home planned finished
    obtain ⟨_, _, _, ran, same, _⟩ := Spec.ran_of_generate slashless home planned finished
    have reached := fun o member => ran.reached o member
    rw [← same] at reached
    exact ⟨fun o member hidden => hidden.2.not_passable (reached o member).2,
      completed.previewed_iff rooted (Spec.regular_of_plan slashless planned) reached⟩

theorem perform_plan_tree (screen : Screen) (host : Host) (file package : String)
    (workspace : Option String) :
    ((Task.plan file package workspace).perform screen host).tree = host.tree := by
  rw [perform_plan_of_prepare]
  split
  · simp [start]
  · split <;> simp [start]

/-- A plan leaves everything as it is, but for the log of a crash. If what the run says first can be
shown, then what ends the run before it starts to write ends the plan, with the same abort and exit
code. Any other run is previewed: if it succeeds, the table says of all outputs what becomes of them
exactly if the root could be followed before, or if nothing was kept. -/
theorem plan_previews_generate_iff (screen : Screen) (host : Host) (file package : String)
    (workspace : Option String) :
    let look := (Task.plan file package workspace).perform screen host
    let run := (Task.generate file package workspace false).perform screen host
    look.tree = host.tree ∧
    Grows host.LogsAt host.tree (Invocation.ofPerformance host screen look).tree ∧
    ((∀ defect, look.abort ≠ some (.defect defect)) →
      (Invocation.ofPerformance host screen look).tree = host.tree) ∧
    (Heard screen host (.ofString file) ⟨workspace, false⟩ →
      match prepare host (.ofString file) package ⟨workspace, false⟩ with
      | .error abort =>
        look.abort = some (screen.ending [] abort) ∧ run.abort = some (screen.ending [] abort) ∧
          run.tree = host.tree ∧ (Invocation.ofPerformance host screen look).exit =
            (Invocation.ofPerformance host screen run).exit
      | .ok p => Previews screen host p look run) := by
  intro look run
  have left : look.tree = host.tree := perform_plan_tree screen host file package workspace
  have grows := Host.ofPerformance_grows host screen look
  rw [left] at grows
  refine ⟨left, grows, fun expected => (Host.ofPerformance_tree screen expected).trans left,
    fun heard => ?_⟩
  cases prepared : prepare host (.ofString file) package ⟨workspace, false⟩ with
  | error abort =>
    have looked := perform_plan_of_prepare screen host file package workspace
    obtain ⟨said, _, ran⟩ := perform_generate_of_prepare package heard
    rw [prepared] at looked ran
    have same : look.abort = some (screen.ending [] abort) := by
      rw [show look = _ from looked, fail_abort]
    have same' : run.abort = some (screen.ending [] abort) := by
      rw [show run = _ from ran, fail_abort]
    have left' : run.tree = host.tree := by
      rw [show run = _ from ran, fail_tree]
      rfl
    exact ⟨same, same', left', Host.ofPerformance_exit screen (left.trans left'.symm)
      (same.trans same'.symm)⟩
  | ok p => exact previews_of_prepare heard prepared

def braces : String := "\x7b\x7d"

def stubbed : Host where
  tree := ⟨[(["s.yaml"], .file (Text.Utf8.encode braces)), (["p"], .directory),
    (["p", "connection"], .directory),
    (["p", "connection", "connect.go"], .file Spec.handWritten)]⟩

def bareRaw (package : String) : Spec := { packageRoot := package, location := "s.yaml" }

def bare (package : String) : Spec :=
  { bareRaw package with
    http := ⟨defaultPort, defaultTimeout, defaultTimeout⟩
    connectionKey := "\"\"" }

theorem enrich_bare (package : String) : (bareRaw package).enrich = .ok (bare package) := rfl

def Prepared.ofBare (package : String) (parts : List String) : Prepared where
  config := {}
  workspace := ⟨.single, []⟩
  spec := bare package
  source := Text.Utf8.encode braces
  root := ⟨.single, parts⟩
  outputs := Plan.outputs (bare package) (Text.Utf8.encode braces)

open Yaml in
theorem dataOf_braces : Spec.dataOf braces = .ok (.map []) := by
  have composed : Graph.ofText braces.toList =
      .ok ⟨[⟨.map, .mapping [], ⟨0, 0, 0⟩⟩].toArray, some 0⟩ := by
    apply ofText_of_tokens [Kind.flowMappingStart.token 0 1, Kind.flowMappingEnd.token 1 2,
      Kind.streamEnd.token 2 2]
    · decide +kernel
    · decide +kernel
  have loaded : load braces.toList = .ok (.map []) := by
    rw [load, loadBy_of_root composed rfl]
    rfl
  have filled : braces.toList.all Text.isBlank = false := by decide
  rw [Spec.dataOf, filled, loaded]
  rfl

theorem loadEnriched_stubbed {package : String} (named : package ≠ "")
    (slashless : Spec.dropSlashes package = package) :
    Spec.loadEnriched (.ofString "s.yaml") package stubbed.environment.cwd stubbed.tree =
      .ok (bare package, Text.Utf8.encode braces) := by
  have content : Spec.readFile (.ofString "s.yaml") "s.yaml" stubbed.environment.cwd stubbed.tree =
      .ok (Text.Utf8.encode braces) := rfl
  have text : (Spec.Source.bytes (Text.Utf8.encode braces)).toText = .ok braces := rfl
  have shown : (Path.ofString "s.yaml").toString = "s.yaml" := by decide
  have own : Spec.effectiveRoot package [] = package := by
    rw [Spec.effectiveRoot, if_pos named, slashless]
  have rooted : Spec.hasRoot package [] = true := by
    simp [Spec.hasRoot, named]
  have parsed : Spec.parse (.bytes (Text.Utf8.encode braces)) package "s.yaml" = .ok (bareRaw package) := by
    rw [Spec.parse, text]
    simp only [dataOf_braces, Spec.ofData, Value.opened, own, rooted]
    rfl
  rw [Spec.loadEnriched, Spec.load, shown, content]
  simp only [parsed, enrich_bare]

theorem prepare_stubbed {package : String} {parts : List String} (named : package ≠ "")
    (slashless : Spec.dropSlashes package = package)
    (home : (bare package).outputRoot ⟨.single, []⟩ = .ok ⟨.single, parts⟩) :
    prepare stubbed (.ofString "s.yaml") package ⟨none, false⟩ = .ok (.ofBare package parts) := by
  have clean : (Path.ofString "s.yaml").hasNul = false := by decide
  have configured : configure stubbed ⟨none, false⟩ = .ok ({}, ⟨.single, []⟩) := rfl
  have distinct : ((Prepared.ofBare package parts).outputs.map Output.key).Nodup := by
    have keys : (Prepared.ofBare package parts).outputs.map Output.key =
        (Prepared.ofBare "" []).outputs.map Output.key := rfl
    rw [keys]
    decide +kernel
  have listed : planned (bare package) (Text.Utf8.encode braces) ⟨.single, []⟩ =
      .ok (⟨.single, parts⟩, (Prepared.ofBare package parts).outputs) :=
    planned_eq_ok.mpr ⟨home, Spec.plan_eq_ok.mpr ⟨rfl, distinct⟩⟩
  simp only [prepare, clean, configured, loadEnriched_stubbed named slashless, listed,
    Bool.false_eq_true, ↓reduceIte]
  rfl

def detour : Prepared := .ofBare "a/../p" ["a", "..", "p"]

theorem prepare_detour :
    prepare stubbed (.ofString "s.yaml") "a/../p" ⟨none, false⟩ = .ok detour :=
  prepare_stubbed (by decide) (by decide) rfl

theorem table_detour : Plan.table detour.root detour.outputs stubbed.environment.cwd stubbed.tree =
    .ok (Plan.listing detour.root detour.outputs fun _ => false) := by
  decide +kernel

theorem calm_default : ({} : Screen).Calm := Screen.calm_of_colorless rfl (by decide)

theorem plan_previews_generate_iff_detour :
    let look := (Task.plan "s.yaml" "a/../p" none).perform {} stubbed
    let run := (Task.generate "s.yaml" "a/../p" none false).perform {} stubbed
    Heard {} stubbed (.ofString "s.yaml") ⟨none, false⟩ ∧ look.tree = stubbed.tree ∧
      Previews {} stubbed detour look run := by
  intro look run
  obtain ⟨tree, _, _, previews⟩ := plan_previews_generate_iff {} stubbed "s.yaml" "a/../p" none
  have heard : Heard {} stubbed (.ofString "s.yaml") ⟨none, false⟩ := heard_of_calm calm_default _ _
  rw [prepare_detour] at previews
  exact ⟨heard, tree, previews heard⟩

theorem prepare_letters {n : Nat} (long : 2 < n) :
    prepare stubbed (.ofString "s.yaml") (letters n) ⟨none, false⟩ =
      .ok (.ofBare (letters n) [letters n]) := by
  have plain : PlainName (letters n) := plainName_letters long
  have named : letters n ≠ "" := by
    intro empty
    have short := plain.long
    simp [empty] at short
  have ends : ∀ c ∈ (letters n).toList, (c == '/') = false := by
    intro c member
    rw [toList_letters] at member
    rw [List.eq_of_mem_replicate member]
    rfl
  have trimmed : Text.trimRight (· == '/') (letters n).toList = (letters n).toList :=
    Text.trimRight_eq_self_iff.mpr fun c last => ends c (List.mem_of_getLast? last)
  have whole : Text.trimBy (· == '/') (letters n).toList = (letters n).toList :=
    Text.trimBy_eq_self trimmed fun c first => ends c (List.mem_of_head? first)
  have slashless : Spec.dropSlashes (letters n) = letters n := by
    rw [Spec.dropSlashes, trimmed, String.ofList_toList]
  have name : (bare (letters n)).rootName = letters n := by
    rw [Spec.rootName, bare, bareRaw, whole, String.ofList_toList]
  have home : (bare (letters n)).outputRoot ⟨.single, []⟩ = .ok ⟨.single, [letters n]⟩ := by
    rw [Spec.outputRoot, name, if_neg named, Path.child, Path.ofString, plain.rootOf, plain.partsOf]
    rfl
  exact prepare_stubbed named slashless home

theorem hidden_letters {n : Nat} (long : longestName < n) :
    ∃ o ∈ (Prepared.ofBare (letters n) [letters n]).outputs,
      o.Hidden ⟨.single, [letters n]⟩ stubbed.environment.cwd stubbed.tree := by
  have plain : PlainName (letters n) := plainName_letters (Nat.lt_trans (by decide) long)
  have size : longestName < (letters n).utf8ByteSize := by
    rwa [utf8ByteSize_letters]
  obtain ⟨o, member, once, same⟩ := Plan.exists_of_listed (Text.Utf8.encode braces)
    (.connect : Plan.Listed (bare (letters n)) _ _)
  have target : (⟨.single, [letters n]⟩ : Path).join o.path =
      ⟨.single, [letters n, "connection", "connect.go"]⟩ := by
    rw [same]
    rfl
  refine ⟨o, member, once, ?_⟩
  rw [target]
  -- The way to the stub has the long name in it, right below the working directory.
  exact ⟨by simp [Path.hasNul, nul_not_mem_letters],
    .inr ⟨[], letters n, _, rfl, trivial, rfl, plain.ne_up, size⟩⟩

/-- The root `a/../p` cannot be followed before the run makes `a`, so that the plan does not see the
connect stub in `p` that the run keeps. At a root with a name that is too long the plan fails, although
the run begins to write. -/
theorem not_plan_previews_generate :
    (¬ ∀ (host : Host) (file package : String) (workspace : Option String) (p : Prepared)
      (table : Table) (report : Generate.Report),
      prepare host (.ofString file) package ⟨workspace, false⟩ = .ok p → p.spec.Slashless →
      p.root.hasNul = false → (∀ o ∈ p.outputs, o.path.hasNul = false) → host.tree.Rooted →
      ((Task.plan file package workspace).perform {} host).table = some table →
      (p.outcome host).result = .ok report →
      table = Plan.listing p.root p.outputs fun o => o.path ∈ report.kept) ∧
    ¬ ∀ (host : Host) (file package : String) (workspace : Option String) (p : Prepared),
      prepare host (.ofString file) package ⟨workspace, false⟩ = .ok p → p.root.hasNul = false →
      ((Task.plan file package workspace).perform {} host).abort = none := by
  constructor
  · intro claim
    have rooted : stubbed.tree.Rooted := rooted_of_entries (by decide)
    have look : ((Task.plan "s.yaml" "a/../p" none).perform {} stubbed).table =
        some (Plan.listing detour.root detour.outputs fun _ => false) :=
      congrArg Performance.table (plan_of_table (calm_default.shows _) prepare_detour table_detour)
    have passed : (detour.outcome stubbed).result.toOption.any
        (fun report => report.kept = [⟨.relative, ["connection", "connect.go"]⟩]) = true := by
      decide +kernel
    obtain ⟨report, finished, kept⟩ := Spec.exists_ok_of_any passed
    have same := claim stubbed "s.yaml" "a/../p" none detour _ report prepare_detour (by decide)
      (by decide) (by decide) rooted look finished
    rw [of_decide_eq_true kept] at same
    exact absurd same (by decide +kernel)
  · intro claim
    have ready := prepare_letters (n := 256) (by decide)
    have previews := previews_of_prepare (heard_of_calm calm_default _ _) ready
    obtain ⟨o, _, _, crashed⟩ := previews.crashed (hidden_letters (by decide))
    have finished := claim stubbed "s.yaml" (letters 256) none _ ready
      (by simp [Prepared.ofBare, Path.hasNul, nul_not_mem_letters])
    rw [finished] at crashed
    cases crashed

end Performance

end PluginCompiler
