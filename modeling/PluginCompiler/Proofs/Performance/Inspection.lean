import PluginCompiler.Proofs.Performance.Refusal
import PluginCompiler.Proofs.Spec.Address

/-! Tasks about one spec. Which package root a task asks for does not show in what it says of a spec that
cannot be read or resolved, so that to look at a spec, which asks for none, is enough to learn it. -/

set_option autoImplicit false

namespace PluginCompiler

/-- A failure to read a spec or to resolve what it declares. -/
def Failure.IsReading : Failure → Prop
  | .spec _ | .unresolvedType _ _ | .enumValue _ _ _ => True
  | _ => False

theorem Failure.IsReading.isRefusal {failure : Failure} (reading : failure.IsReading) :
    failure.IsRefusal := by
  cases failure with
  | spec | unresolvedType | enumValue => trivial
  | _ => exact reading.elim

namespace Task

def package : Task → String
  | .generate _ package _ _ | .plan _ package _ => package
  | .inspect _ _ => ""

/-- The configuration of a task resolves; to look at a spec takes none. -/
def Configured (host : Host) : Task → Prop
  | .generate _ _ workspace skip =>
    ∃ settings, Performance.configure host ⟨workspace, skip⟩ = .ok settings
  | .plan _ _ workspace => ∃ settings, Performance.configure host ⟨workspace, false⟩ = .ok settings
  | .inspect _ _ => True

def IsHeard (screen : Screen) (host : Host) : Task → Prop
  | .generate file _ workspace skip =>
    Performance.Heard screen host (.ofString file) ⟨workspace, skip⟩
  | .plan _ _ _ | .inspect _ _ => True

end Task

/-- The spec file, if it can be read, has no alias that leads back to the mapping it is. -/
def Path.Unaliased (file : Path) (host : Host) : Prop :=
  ∀ content, Spec.readFile file file.toString host.environment.cwd host.tree = .ok content →
    (Spec.Source.bytes content).Unaliased

/-- The spec file can be read, and the package root in it cannot be written. -/
def Path.Unrooted (file : Path) (host : Host) : Prop :=
  ∃ content, Spec.readFile file file.toString host.environment.cwd host.tree = .ok content ∧
    (Spec.Source.bytes content).Unrooted

/-- What a task reads from its spec file. A NUL in the name is refused before anything else. -/
def Path.loaded (file : Path) (package : String) (host : Host) : Except Abort (Spec × List UInt8) :=
  if file.hasNul then .error (.defect .nulInPath)
  else Spec.loadEnriched file package host.environment.cwd host.tree

namespace Spec

variable {path : Path} {cwd : Place} {t : FileTree} {abort : Abort}

theorem loadEnriched_of_content {content : List UInt8} (packageRoot : String)
    (read : readFile path path.toString cwd t = .ok content) :
    loadEnriched path packageRoot cwd t =
      (parseEnriched (.bytes content) packageRoot path.toString).map fun spec => (spec, content) := by
  simp only [loadEnriched, load, read, parseEnriched]
  cases parse (.bytes content) packageRoot path.toString with
  | error abort => rfl
  | ok spec => cases enriched : spec.enrich <;> simp only [enriched] <;> rfl

theorem loaded_eq_error {host : Host} {packageRoot : String} (packageRoot' : String)
    (unaliased : path.Unaliased host)
    (rooted : path.Unrooted host → (packageRoot = "" ↔ packageRoot' = ""))
    (failed : path.loaded packageRoot host = .error abort) :
    path.loaded packageRoot' host = .error abort := by
  rw [Path.loaded] at failed ⊢
  split at failed
  · next nul => rwa [if_pos nul]
  · next clean =>
    rw [if_neg clean]
    cases read : readFile path path.toString host.environment.cwd host.tree with
    | error other =>
      rw [loadEnriched, load, read] at failed ⊢
      exact failed
    | ok content =>
      have alike := parseEnriched_map_addressed (unaliased content read) path.toString path.toString
        fun unrooted => rooted ⟨content, read, unrooted⟩
      rw [loadEnriched_of_content _ read] at failed ⊢
      rw [map_eq_error failed] at alike
      rw [map_eq_error alike.symm]
      rfl

end Spec

namespace Performance

variable {screen : Screen} {host : Host} {task : Task} {abort : Abort} {failure : Failure}

theorem perform_inspect_of_unread {view : View} {file : String}
    (failed : (Path.ofString file).loaded "" host = .error abort) :
    (Task.inspect view file).perform screen host = (start host).fail screen [] abort := by
  rw [Path.loaded] at failed
  rw [Task.perform, Task.file]
  split at failed
  · next nul =>
    cases failed
    rw [if_pos nul]
    rfl
  · next clean =>
    rw [if_neg clean]
    simp only [ofTask, inspect, failed]
    rfl

theorem perform_of_unread (configured : task.Configured host) (heard : task.IsHeard screen host)
    (failed : task.file.loaded task.package host = .error abort) :
    ∃ said, task.perform screen host = { start host with messages := said }.fail screen [] abort ∧
      ∀ text, .error text ∉ said := by
  cases task with
  | inspect view file => exact ⟨[], perform_inspect_of_unread failed, fun _ => nofun⟩
  | plan file package workspace =>
    obtain ⟨⟨config, directory⟩, settings⟩ := configured
    refine ⟨[], ?_, fun _ => nofun⟩
    rw [Path.loaded, Task.file, Task.package] at failed
    rw [Task.perform, Task.file]
    split at failed
    · next nul =>
      cases failed
      rw [if_pos nul]
      rfl
    · next clean =>
      rw [if_neg clean]
      simp only [ofTask, plan, settings, failed]
      rfl
  | generate file package workspace skip =>
    -- Only a run that generates says something before it reads the spec.
    obtain ⟨⟨config, directory⟩, settings⟩ := configured
    rw [Path.loaded, Task.file, Task.package] at failed
    rw [Task.perform, Task.file]
    split at failed
    · next nul =>
      cases failed
      rw [if_pos nul]
      exact ⟨[], rfl, fun _ => nofun⟩
    · next clean =>
      refine ⟨loadingNotes directory (.ofString file), ?_, fun text => by simp [loadingNotes]⟩
      rw [if_neg clean]
      simp only [ofTask, generate, settings]
      rw [tell_of_takes (heard config directory settings), andThen_of_going rfl, failed]
      rfl

/-- What a task can fail with, by the step that it ends at. -/
inductive Ends (host : Host) (task : Task) (failure : Failure) : Prop
  | unconfigured {flags : Config.Flags} (failed : configure host flags = .error (.failure failure))
      (unconfigured : ¬ task.Configured host)
  | unread (failed : task.file.loaded task.package host = .error (.failure failure))
  | unplanned {spec : Spec} {source : List UInt8} {workspace : Path}
      (failed : planned spec source workspace = .error failure)
  | unwritten {screen : Screen} {config : Config} {workspace : Path} {spec : Spec} {source : List UInt8}
      {p : Performance}
      (ended : (p.write screen host config workspace spec source).abort = some (.failure failure))

theorem fail_eq_failure {p : Performance} {advice : List Message}
    (ended : (p.fail screen advice abort).abort = some (.failure failure)) : abort = .failure failure := by
  rw [fail_abort] at ended
  exact (Screen.ending_eq_failure.mp (Option.some.inj ended)).1

theorem ends_of_generate {file package : String} {workspace : Option String} {skip : Bool}
    (clean : ¬ (Path.ofString file).hasNul = true)
    (ended : (generate screen host (.ofString file) package ⟨workspace, skip⟩).abort =
      some (.failure failure)) : Ends host (.generate file package workspace skip) failure := by
  rw [generate] at ended
  split at ended
  · next failed =>
    cases fail_eq_failure ended
    refine .unconfigured failed ?_
    rintro ⟨settings, configured⟩
    cases failed.symm.trans configured
  · rw [andThen] at ended
    split at ended
    · exact absurd ended (tell_abort_ne _)
    · split at ended
      · next failed =>
        cases fail_eq_failure ended
        exact .unread ((if_neg clean).trans failed)
      · exact .unwritten ended

theorem display_abort_ne {p : Performance} {table : Option Table} (going : p.abort = none) :
    (p.display screen table).abort ≠ some (.failure failure) := by
  rw [display]
  split
  · simp
  · simp [going]

theorem ends_of_plan {file package : String} {workspace : Option String}
    (clean : ¬ (Path.ofString file).hasNul = true)
    (ended : (plan screen host (.ofString file) package ⟨workspace, false⟩).abort =
      some (.failure failure)) : Ends host (.plan file package workspace) failure := by
  rw [plan] at ended
  split at ended
  · next failed =>
    cases fail_eq_failure ended
    refine .unconfigured failed ?_
    rintro ⟨settings, configured⟩
    cases failed.symm.trans configured
  · split at ended
    · next failed =>
      cases fail_eq_failure ended
      exact .unread ((if_neg clean).trans failed)
    · split at ended
      · next failed =>
        cases fail_eq_failure ended
        exact .unplanned failed
      · split at ended
        · cases fail_eq_failure ended
        · exact absurd ended (display_abort_ne rfl)

theorem loaded_of_inspect {view : View} {file : String}
    (ended : ((Task.inspect view file).perform screen host).abort = some (.failure failure)) :
    (Path.ofString file).loaded "" host = .error (.failure failure) := by
  rw [Task.perform, Task.file] at ended
  rw [Path.loaded]
  split at ended
  · cases ended
  · next clean =>
    rw [if_neg clean]
    rw [ofTask, inspect] at ended
    split at ended
    · next failed =>
      cases fail_eq_failure ended
      exact failed
    · split at ended
      · cases fail_eq_failure ended
      · rw [andThen] at ended
        split at ended
        · exact absurd ended (display_abort_ne rfl)
        · exact absurd ended (tell_abort_ne _)

theorem ends_of_perform (ended : (task.perform screen host).abort = some (.failure failure)) :
    Ends host task failure := by
  cases task with
  | inspect view file => exact .unread (loaded_of_inspect ended)
  | generate file =>
    rw [Task.perform, Task.file] at ended
    split at ended
    · cases ended
    · next clean => exact ends_of_generate clean ended
  | plan file =>
    rw [Task.perform, Task.file] at ended
    split at ended
    · cases ended
    · next clean => exact ends_of_plan clean ended

theorem not_isReading_of_planned {spec : Spec} {source : List UInt8} {workspace : Path}
    (failed : planned spec source workspace = .error failure) : ¬ failure.IsReading := by
  obtain ⟨_, rfl⟩ | ⟨_, _, _, rfl⟩ := cause_of_planned failed
  · exact id
  · exact id

theorem not_isReading_of_write {config : Config} {workspace : Path} {spec : Spec} {source : List UInt8}
    {p : Performance}
    (ended : (p.write screen host config workspace spec source).abort = some (.failure failure)) :
    ¬ failure.IsReading := by
  cases listed : planned spec source workspace with
  | error other =>
    simp only [write, planned_eq_error listed] at ended
    cases fail_eq_failure ended
    exact not_isReading_of_planned listed
  | ok layout =>
    obtain ⟨home, outputs⟩ := planned_eq_ok.mp listed
    intro reading
    exact isLate_of_write home outputs ended reading.isRefusal

theorem unread_of_perform (configured : task.Configured host) (reading : failure.IsReading)
    (ended : (task.perform screen host).abort = some (.failure failure)) :
    task.file.loaded task.package host = .error (.failure failure) := by
  cases ends_of_perform ended with
  | unconfigured _ unconfigured => exact absurd configured unconfigured
  | unread failed => exact failed
  | unplanned failed => exact absurd reading (not_isReading_of_planned failed)
  | unwritten ended => exact absurd reading (not_isReading_of_write ended)

/-- What a look at a spec and another task about the same spec have in common. -/
structure Agrees (screen : Screen) (host : Host) (file : Path) (look run : Performance) : Prop where
  /-- What keeps the spec from being read or resolved ends both, and the other task says nothing else that
  is wrong. -/
  reported : ∀ abort, file.loaded "" host = .error abort →
    look.abort = some (screen.ending [] abort) ∧ look.messages = screen.report [] abort ∧
      run.abort = some (screen.ending [] abort) ∧ run.tree = host.tree ∧ run.commands = [] ∧
      (∃ said, run.messages = said ++ screen.report [] abort ∧ ∀ text, .error text ∉ said) ∧
      (Invocation.ofPerformance host screen run).exit = (Invocation.ofPerformance host screen look).exit
  unread : ∀ failure, look.abort = some (.failure failure) →
    file.loaded "" host = .error (.failure failure)
  complete : ∀ failure, failure.IsReading → run.abort = some (.failure failure) →
    look.abort = some (.failure failure)

/-- A spec is refused with the same abort under all package roots and locations, or read to specs that
differ in these only, unless only one of them falls back on a package root in the document that has too
many digits to be written. To look at it ends with what keeps any other task about it from reading or
resolving it that gets as far, and with every failure of one to do so. -/
theorem inspect_reports_reading (source : Spec.Source) (screen : Screen) (host : Host) (view : View)
    (file : String) (task : Task) :
    (source.Unaliased →
      (source.Unrooted → ∀ location,
        Spec.parseEnriched source "" location = .error (.defect (.digits .writing))) ∧
      ∀ packageRoot location packageRoot' location',
        (source.Unrooted → (packageRoot = "" ↔ packageRoot' = "")) →
        (Spec.parseEnriched source packageRoot location).map (Spec.addressed "" "") =
          (Spec.parseEnriched source packageRoot' location').map (Spec.addressed "" "")) ∧
    (task.file = .ofString file → task.Configured host → task.IsHeard screen host →
      (Path.ofString file).Unaliased host → ((Path.ofString file).Unrooted host → task.package = "") →
      Agrees screen host (.ofString file) ((Task.inspect view file).perform screen host)
        (task.perform screen host)) := by
  refine ⟨fun unaliased => ⟨Spec.parseEnriched_of_unrooted unaliased,
      fun _ location _ location' => Spec.parseEnriched_map_addressed unaliased location location'⟩,
    fun same configured heard unaliased rooted => ?_⟩
  -- From looking to the task, from looking to what failed, and back from the task.
  refine ⟨fun abort failed => ?_, fun failure ended => ?_, fun failure reading ended => ?_⟩
  · have unread : task.file.loaded task.package host = .error abort := by
      rw [same]
      exact Spec.loaded_eq_error _ unaliased (fun unrooted => iff_of_true rfl (rooted unrooted)) failed
    have looked : (Task.inspect view file).perform screen host = (start host).fail screen [] abort :=
      perform_inspect_of_unread failed
    obtain ⟨said, ran, quiet⟩ := perform_of_unread configured heard unread
    rw [looked, ran]
    refine ⟨fail_abort .., fail_messages .., fail_abort .., fail_tree .., fail_commands ..,
      ⟨said, fail_messages .., quiet⟩, Host.ofPerformance_exit screen ?_ ?_⟩
    · rw [fail_tree, fail_tree]
    · rw [fail_abort, fail_abort]
  · exact loaded_of_inspect ended
  · have unread := unread_of_perform configured reading ended
    rw [same] at unread
    have unread' := Spec.loaded_eq_error "" unaliased
      (fun unrooted => iff_of_true (rooted unrooted) rfl) unread
    have told := unread_of_perform configured reading ended
    obtain ⟨said, ran, _⟩ := perform_of_unread configured heard told
    rw [perform_inspect_of_unread unread', fail_abort]
    rwa [ran, fail_abort] at ended

theorem readFile_untyped : Spec.readFile (.ofString "s.yaml") (Path.ofString "s.yaml").toString
    untyped.environment.cwd untyped.tree = .ok (Text.Utf8.encode (typedBy "row")) := rfl

theorem toText_untyped :
    (Spec.Source.bytes (Text.Utf8.encode (typedBy "row"))).toText = .ok (typedBy "row") := rfl

theorem unaliased_untyped : (Path.ofString "s.yaml").Unaliased untyped := by
  intro content read text decoded
  cases readFile_untyped.symm.trans read
  cases toText_untyped.symm.trans decoded
  exact Yaml.inDocument_of_all (by decide +kernel)

/-- The data is no mapping, or has a package root that can be written. -/
def isRooted (data : Value) : Bool :=
  match data.opened with
  | .map entries => Spec.hasRoot "" entries
  | _ => true

theorem rooted_untyped : ¬ (Path.ofString "s.yaml").Unrooted untyped := by
  rintro ⟨content, read, text, data, entries, decoded, loaded, opened, unrooted⟩
  cases readFile_untyped.symm.trans read
  cases toText_untyped.symm.trans decoded
  have checked : (Spec.dataOf (typedBy "row")).toOption.all isRooted = true := by
    decide +kernel
  simp [loaded, isRooted, opened, unrooted, Except.toOption] at checked

/-- A type that is not declared is reported alike with and without a package root. -/
theorem inspect_reports_reading_untyped :
    let look := (Task.inspect .summary "s.yaml").perform {} untyped
    let run := (Task.generate "s.yaml" "p" none false).perform {} untyped
    let failure := Failure.unresolvedType "row" "trigger t output.p"
    (Task.generate "s.yaml" "p" none false).Configured untyped ∧
      (Path.ofString "s.yaml").Unaliased untyped ∧ (Spec.Source.text Spec.keyed).Unaliased ∧
      (∃ spec, Spec.parseEnriched (.text Spec.keyed) "" "" = .ok spec ∧
        ∃ spec', Spec.parseEnriched (.text Spec.keyed) "p/" "s.yaml" = .ok spec' ∧
          spec.addressed "" "" = spec'.addressed "" "") ∧
      look.abort = some (.failure failure) ∧ look.messages = [.error failure.message] ∧
      run.abort = some (.failure failure) ∧ run.tree = untyped.tree := by
  intro look run failure
  have configured : (Task.generate "s.yaml" "p" none false).Configured untyped :=
    ⟨({}, ⟨.single, []⟩), rfl⟩
  have unaliased : (Spec.Source.text Spec.keyed).Unaliased := by
    intro text decoded
    cases decoded
    exact (Yaml.inDocument_iff Spec.ofText_keyed rfl).mpr (by decide)
  have rooted : ¬ (Spec.Source.text Spec.keyed).Unrooted := by
    rintro ⟨text, data, entries, decoded, read, opened, unrooted⟩
    cases decoded
    cases (Spec.dataOf_keyed).symm.trans read
    cases opened
    exact absurd unrooted (by decide)
  obtain ⟨sources, tasks⟩ := inspect_reports_reading (.text Spec.keyed) {} untyped .summary "s.yaml"
    (.generate "s.yaml" "p" none false)
  have alike := (sources unaliased).2 "" "" "p/" "s.yaml" fun unrooted =>
    absurd unrooted rooted
  obtain ⟨spec, first⟩ : ∃ spec, Spec.parseEnriched (.text Spec.keyed) "" "" = .ok spec := by
    rw [Spec.parseEnriched, Spec.parse_keyed]
    exact ⟨_, rfl⟩
  rw [first] at alike
  obtain ⟨spec', second, same⟩ := map_eq_ok alike.symm
  have agrees : Agrees {} untyped (.ofString "s.yaml") look run :=
    tasks rfl configured (heard_of_calm calm_default _ _) unaliased_untyped fun unrooted =>
      absurd unrooted rooted_untyped
  have looked : look.abort = some (.failure failure) := eq_of_isUntyped (by decide +kernel)
  obtain ⟨_, messages, ran, tree, _⟩ := agrees.reported _ (agrees.unread _ looked)
  have told : ∀ m ∈ [Message.error failure.message], ({} : Screen).Takes m :=
    fun m _ => calm_default.takes m
  rw [Screen.report_of_takes told] at messages
  rw [Screen.ending_of_takes told] at ran
  exact ⟨configured, unaliased_untyped, unaliased, ⟨spec, first, spec', second, same.symm⟩, looked,
    messages, ran, tree⟩

/-- Data whose package root has too many digits. -/
def distant : Value := .map [(.text "package_root", .int Text.leastExcess)]

theorem ofData_distant : ∃ spec, Spec.ofData distant "p" "" = .ok spec := by
  have replaced : (distant.withEntry "package_root" (.text "p")).withEntry "spec_location" (.text "") =
      .map [(.text "package_root", .text "p"), (.text "spec_location", .text "")] := rfl
  have own : Spec.effectiveRoot "p" [(.text "package_root", .int Text.leastExcess)] = "p" := by
    rw [Spec.effectiveRoot, if_pos (by decide)]
    decide
  have rooted : Spec.hasRoot "p" [(.text "package_root", .int Text.leastExcess)] = true := by
    simp [Spec.hasRoot]
  rw [Spec.ofData]
  simp only [distant, Value.opened, rooted, own, ↓reduceIte]
  rw [← distant, replaced]
  exact ⟨_, rfl⟩

/-- A package root that cannot be written matters where none is asked for, and only there. -/
theorem not_inspect_reports_reading :
    ¬ ∀ (data : Value) (packageRoot packageRoot' location : String),
      (∃ spec, Spec.ofData data packageRoot location = .ok spec) →
        ∃ spec, Spec.ofData data packageRoot' location = .ok spec := by
  intro alike
  obtain ⟨spec, given⟩ := alike distant "p" "" "" ofData_distant
  have rootless : Spec.hasRoot "" [(.text "package_root", .int Text.leastExcess)] = false := by
    simp [Spec.hasRoot, Value.find?, Value.isWritable, Text.isWritable]
  simp [Spec.ofData, distant, Value.opened, rootless] at given

end Performance

end PluginCompiler
