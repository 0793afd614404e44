import PluginCompiler.Invocation
import PluginCompiler.Proofs.Performance.Inspection
import PluginCompiler.Proofs.Text.Decoding

/-! How a configuration ends a run. What is wrong with a configuration is reported as that, unless one of
its files holds bytes of no text or a number of too many digits, or cannot even be looked at; then the run
is logged as a crash. -/

set_option autoImplicit false

namespace PluginCompiler

namespace Config

variable {path : Path} {cwd : Place} {t : FileTree} {content : List UInt8} {defect : Defect}
  {e : Environment} {f : Flags}

/-- A configuration file that cannot be looked at, that holds no text, or that is read up to a number of
too many digits. -/
inductive Illegible (path : Path) (cwd : Place) (t : FileTree) : Defect → Prop where
  | unreachable {defect : Defect} (blocked : path.file? cwd t = .error defect) :
    Illegible path cwd t defect
  | garbled {content : List UInt8} {fault : Text.Utf8.DecodeError}
    (found : path.file? cwd t = .ok (some content))
    (garbled : Text.Utf8.decode content = .error fault) : Illegible path cwd t (.notUtf8 fault)
  | numerous {content : List UInt8} {s : String} {fault : Text.DigitFault}
    (found : path.file? cwd t = .ok (some content)) (decoded : Text.Utf8.decode content = .ok s)
    (numerous : Json.read (Text.unifyNewlines s.toList) = .error (.digits fault)) :
    Illegible path cwd t (.digits fault)

/-- What keeps a configuration from being resolved or refused. The file of the project is read only after
that of the user. -/
inductive Escapes (e : Environment) (t : FileTree) : Defect → Prop where
  | nowhere {defect : Defect} (unknown : e.configDirectory = .error defect) : Escapes e t defect
  | user {defect : Defect} {directory : Path} (known : e.configDirectory = .ok directory)
    (illegible : Illegible (directory.child "config.json") e.cwd t defect) : Escapes e t defect
  | project {defect : Defect} {user : Entries} (read : readGlobal e t = .ok user)
    (illegible : Illegible (e.workingDirectory.child "plugspec.json") e.cwd t defect) :
    Escapes e t defect

theorem garbled_iff :
    (∃ fault, Text.Utf8.decode content = .error fault) ↔ ∀ s, content ≠ Text.Utf8.encode s := by
  constructor
  · rintro ⟨fault, garbled⟩ s same
    rw [Text.Utf8.decode_eq_ok.mpr same] at garbled
    cases garbled
  · intro none
    cases decoded : Text.Utf8.decode content with
    | error fault => exact ⟨fault, rfl⟩
    | ok s => exact absurd (Text.Utf8.decode_eq_ok.mp decoded) (none s)

theorem entriesOf_eq_defect : entriesOf path content = .error (.defect defect) ↔
    (∃ fault, Text.Utf8.decode content = .error fault ∧ defect = .notUtf8 fault) ∨
      ∃ s fault, Text.Utf8.decode content = .ok s ∧
        Json.read (Text.unifyNewlines s.toList) = .error (.digits fault) ∧ defect = .digits fault := by
  rw [entriesOf]
  cases decoded : Text.Utf8.decode content with
  | error fault => simp [eq_comm]
  | ok s =>
    dsimp only
    cases read : Json.read (Text.unifyNewlines s.toList) with
    | error refusal => cases refusal <;> simp [read, refuse, eq_comm]
    | ok v => cases v <;> simp [read, refuse]

theorem readFile_eq_defect :
    readFile path cwd t = .error (.defect defect) ↔ Illegible path cwd t defect := by
  rw [readFile]
  constructor
  · intro failed
    split at failed
    · next blocked =>
      cases failed
      exact .unreachable blocked
    · cases failed
    · next content found =>
      obtain ⟨fault, garbled, rfl⟩ | ⟨s, fault, decoded, numerous, rfl⟩ := entriesOf_eq_defect.mp failed
      · exact .garbled found garbled
      · exact .numerous found decoded numerous
  · rintro (blocked | ⟨found, garbled⟩ | ⟨found, decoded, numerous⟩)
    · simp only [blocked]
    · simp only [found]
      exact entriesOf_eq_defect.mpr (.inl ⟨_, garbled, rfl⟩)
    · simp only [found]
      exact entriesOf_eq_defect.mpr (.inr ⟨_, _, decoded, numerous, rfl⟩)

theorem readGlobal_eq_defect : readGlobal e t = .error (.defect defect) ↔
    e.configDirectory = .error defect ∨ ∃ directory, e.configDirectory = .ok directory ∧
      Illegible (directory.child "config.json") e.cwd t defect := by
  rw [readGlobal, globalPath]
  cases e.configDirectory with
  | error other => simp
  | ok directory => simp [readFile_eq_defect]

theorem resolve_eq_defect : resolve e f t = .error (.defect defect) ↔ Escapes e t defect := by
  constructor
  · intro failed
    rw [resolve] at failed
    split at failed
    · next unread =>
      cases failed
      obtain unknown | ⟨directory, known, illegible⟩ := readGlobal_eq_defect.mp unread
      · exact .nowhere unknown
      · exact .user known illegible
    · next user read =>
      split at failed
      · next unread =>
        cases failed
        exact .project read (readFile_eq_defect.mp unread)
      · next project _ =>
        cases settled : ofLayers user project e f <;> simp [settled, Except.mapError] at failed
  · intro escapes
    rw [resolve]
    cases escapes with
    | nowhere unknown => simp only [readGlobal_eq_defect.mpr (.inl unknown)]
    | user known illegible => simp only [readGlobal_eq_defect.mpr (.inr ⟨_, known, illegible⟩)]
    | project read illegible =>
      simp only [read, readProject, readFile_eq_defect.mpr illegible]

theorem resolve_of_not_escapes (expected : ∀ defect, ¬ Escapes e t defect) (f : Flags) :
    (∃ config, resolve e f t = .ok config) ∨
      ∃ problem, resolve e f t = .error (.failure (.config problem)) := by
  cases resolved : resolve e f t with
  | ok config => exact .inl ⟨config, rfl⟩
  | error abort =>
    have kind := isConfig_of_resolve resolved
    match abort, kind with
    | .failure (.config problem), _ => exact .inr ⟨problem, rfl⟩
    | .defect defect, _ => exact absurd (resolve_eq_defect.mp resolved) (expected defect)

end Config

def Task.flags? : Task → Option Config.Flags
  | .generate _ _ workspace skip => some ⟨workspace, skip⟩
  | .plan _ _ workspace => some ⟨workspace, false⟩
  | .inspect _ _ => none

namespace Performance

variable {screen : Screen} {host : Host} {task : Task} {flags : Config.Flags} {abort : Abort}

theorem perform_of_unconfigured (clean : task.file.hasNul = false) (asked : task.flags? = some flags)
    (failed : configure host flags = .error abort) :
    task.perform screen host = (start host).fail screen [] abort := by
  rw [Task.perform, clean]
  cases task with
  | generate file package workspace skip =>
    cases asked
    simp only [Bool.false_eq_true, ↓reduceIte, ofTask, generate, failed]
    rfl
  | plan file package workspace =>
    cases asked
    simp only [Bool.false_eq_true, ↓reduceIte, ofTask, plan, failed]
    rfl
  | inspect => cases asked

theorem configured_of_configure (asked : task.flags? = some flags) {settings : Config × Path}
    (settled : configure host flags = .ok settings) : task.Configured host := by
  cases task with
  | generate | plan =>
    cases asked
    exact ⟨settings, settled⟩
  | inspect => cases asked

/-- What a run leaves that is logged as a crash before anything else. It has no exit code if the crash could
not be logged, or the user not be told of the log. -/
structure Crashes (screen : Screen) (host : Host) (defect : Defect) (run : Invocation) : Prop where
  tree : run.tree = (Invocation.logDefect host host.tree defect).1
  exit : run.exit = (Invocation.logDefect host host.tree defect).2.bind fun log =>
    (screen.lines (.error s!"Unexpected error. Debug log: {log}")).map fun _ => 1
  errors : ∀ log ls, (Invocation.logDefect host host.tree defect).2 = .ok log →
    screen.lines (.error s!"Unexpected error. Debug log: {log}") = .ok ls → run.errors = ls
  nothing : run.output = [] ∧ run.commands = []

/-- What a run leaves whose configuration is wrong. If the user cannot be told, that is a crash. -/
structure Reports (screen : Screen) (host : Host) (problem : ConfigProblem) (run : Invocation) :
    Prop where
  told : ∀ ls, screen.lines (.error (screen.wording (.config problem))) = .ok ls →
    run.exit = .ok 1 ∧ run.errors = ls ∧ run.tree = host.tree ∧ run.output = [] ∧ run.commands = []
  untold : ∀ defect, screen.lines (.error (screen.wording (.config problem))) = .error defect →
    Crashes screen host defect run

theorem crashes_of_silent {p : Performance} {defect : Defect} (tree : p.tree = host.tree)
    (silent : p.messages = [] ∧ p.table = none ∧ p.commands = [])
    (crashed : p.abort = some (.defect defect)) :
    Crashes screen host defect (.ofPerformance host screen p) := by
  obtain ⟨quiet, bare, idle⟩ := silent
  simp only [Invocation.ofPerformance, crashed, tree, quiet, bare, idle]
  cases logged : Invocation.logDefect host host.tree defect with
  | mk tree result =>
    cases result with
    | error other => exact ⟨by rw [logged], by rw [logged]; rfl, by simp [logged], rfl, rfl⟩
    | ok log =>
      dsimp only
      cases told : screen.lines (.error s!"Unexpected error. Debug log: {log}") with
      | error other =>
        refine ⟨by rw [logged], ?_, fun log' ls same shown => ?_, rfl, rfl⟩
        · simp only [logged, Except.bind, told]
          rfl
        · rw [logged] at same
          cases same
          cases told.symm.trans shown
      | ok last =>
        refine ⟨by rw [logged], ?_, fun log' ls same shown => ?_, rfl, rfl⟩
        · simp only [logged, Except.bind, told]
          rfl
        · rw [logged] at same
          cases same
          cases told.symm.trans shown
          rfl

theorem crashes_of_fail (defect : Defect) :
    Crashes screen host defect
      (.ofPerformance host screen ((start host).fail screen [] (.defect defect))) :=
  crashes_of_silent rfl ⟨rfl, rfl, rfl⟩ rfl

theorem reports_of_fail (problem : ConfigProblem) :
    Reports screen host problem
      (.ofPerformance host screen ((start host).fail screen [] (.failure (.config problem)))) where
  told ls shown := by
    have takes : ∀ m ∈ [Message.error (screen.wording (.config problem))], screen.Takes m := by
      simpa using ⟨ls, shown⟩
    rw [fail_of_takes takes]
    have lines : screen.shownLines [.error (screen.wording (.config problem))] = ls := by
      simp only [Screen.shownLines, List.flatMap_cons, List.flatMap_nil, List.append_nil]
      rw [show screen.lines (.error (screen.wording (.config problem))) = .ok ls from shown]
      rfl
    exact ⟨rfl, lines, rfl, rfl, rfl⟩
  untold defect refused := by
    have delivered : screen.deliver [.error (screen.wording (.config problem))] = ([], some defect) := by
      rw [Screen.deliver, show screen.lines (.error (screen.wording (.config problem))) = .error defect
        from refused]
    refine crashes_of_silent (fail_tree ..) ⟨?_, ?_, fail_commands ..⟩ ?_
    · rw [fail_messages, Screen.report, delivered]
      rfl
    · simp only [fail, tell, delivered, andThen, Option.map_some, Option.isSome_some, ↓reduceIte]
      rfl
    · rw [fail_abort, Screen.ending, delivered]

theorem crashes_of_configure {defect : Defect} (clean : task.file.hasNul = false)
    (asked : task.flags? = some flags) (failed : configure host flags = .error (.defect defect)) :
    Crashes screen host defect (.ofPerformance host screen (task.perform screen host)) := by
  rw [perform_of_unconfigured clean asked failed]
  exact crashes_of_fail defect

structure Begins (screen : Screen) (host : Host) (flags : Config.Flags) (task : Task)
    (run : Invocation) : Prop where
  refused : ∀ problem,
    Config.resolve host.environment flags host.tree = .error (.failure (.config problem)) →
      Reports screen host problem run
  escaped : ∀ defect, Config.Escapes host.environment host.tree defect →
    Crashes screen host defect run
  /-- The workspace is written with a tilde that stands for no home directory. -/
  homeless : ∀ config defect, Config.resolve host.environment flags host.tree = .ok config →
    config.workspace host.environment = .error defect → Crashes screen host defect run
  begun : ∀ config workspace, Config.resolve host.environment flags host.tree = .ok config →
    config.workspace host.environment = .ok workspace → task.Configured host

theorem begins_of_clean (screen : Screen) (clean : task.file.hasNul = false)
    (asked : task.flags? = some flags) :
    Begins screen host flags task (.ofPerformance host screen (task.perform screen host)) where
  refused problem wrong := by
    have failed : configure host flags = .error (.failure (.config problem)) := by
      simp only [configure, wrong]
    rw [perform_of_unconfigured clean asked failed]
    exact reports_of_fail problem
  escaped defect escapes := by
    have failed : configure host flags = .error (.defect defect) := by
      simp only [configure, Config.resolve_eq_defect.mpr escapes]
    exact crashes_of_configure clean asked failed
  homeless config defect resolved unknown := by
    have failed : configure host flags = .error (.defect defect) := by
      simp only [configure, resolved, unknown]
    exact crashes_of_configure clean asked failed
  begun config workspace resolved known := by
    have settled : configure host flags = .ok (config, workspace) := by
      simp only [configure, resolved, known]
    exact configured_of_configure asked settled

/-- A configuration is resolved or refused exactly if the place of its files is known and the files, where
they exist, can be looked at, hold the bytes of texts and have no number of too many digits before anything
else that is wrong, whatever they say. Any other file ends a run as a crash. -/
theorem resolve_answers_iff (host : Host) (flags : Config.Flags) :
    (∀ content, (∃ fault, Text.Utf8.decode content = .error fault) ↔
      ∀ s, content ≠ Text.Utf8.encode s) ∧
    (∀ defect, Config.resolve host.environment flags host.tree = .error (.defect defect) ↔
      Config.Escapes host.environment host.tree defect) ∧
    ((∃ config, Config.resolve host.environment flags host.tree = .ok config) ∨
        (∃ problem,
          Config.resolve host.environment flags host.tree = .error (.failure (.config problem))) ↔
      ∀ defect, ¬ Config.Escapes host.environment host.tree defect) ∧
    ∀ screen (task : Task), task.flags? = some flags → task.file.hasNul = false →
      Begins screen host flags task (.ofPerformance host screen (task.perform screen host)) := by
  refine ⟨fun content => Config.garbled_iff, fun defect => Config.resolve_eq_defect,
    ⟨fun answers defect escapes => ?_, fun expected => Config.resolve_of_not_escapes expected flags⟩,
    fun screen task asked clean => begins_of_clean screen clean asked⟩
  rw [Config.resolve_eq_defect.mpr escapes] at answers
  rcases answers with ⟨config, same⟩ | ⟨problem, same⟩ <;> cases same

def garbled : Host where
  environment := { bindings := [("HOME", "/h")] }
  tree := ⟨[(["h"], .directory), (["h", ".config"], .directory), (["h", ".config", "plugspec"], .directory),
    (["h", ".config", "plugspec", "config.json"], .file [0xFF])]⟩

theorem resolve_answers_iff_garbled :
    let task := Task.plan "s.yaml" "p" none
    let fault : Text.Utf8.DecodeError := ⟨0xFF, 0, 1, .invalidStart⟩
    let run := Invocation.ofPerformance garbled {} (task.perform {} garbled)
    task.flags? = some {} ∧ task.file.hasNul = false ∧ (∀ s, [0xFF] ≠ Text.Utf8.encode s) ∧
      Config.resolve garbled.environment {} garbled.tree = .error (.defect (.notUtf8 fault)) ∧
      Crashes {} garbled (.notUtf8 fault) run := by
  intro task fault run
  obtain ⟨texts, escaping, _, runs⟩ := resolve_answers_iff garbled {}
  have undecoded : Text.Utf8.decode [0xFF] = .error fault := rfl
  have known : garbled.environment.configDirectory = .ok ⟨.single, ["h", ".config", "plugspec"]⟩ := rfl
  have escapes : Config.Escapes garbled.environment garbled.tree (.notUtf8 fault) :=
    .user known (.garbled rfl undecoded)
  have begins := runs {} task rfl rfl
  exact ⟨rfl, rfl, (texts _).mp ⟨fault, undecoded⟩, (escaping _).mpr escapes, begins.escaped _ escapes⟩

/-- A configuration that is no text is neither resolved nor refused. -/
theorem not_resolve_answers :
    ¬ ∀ (host : Host) (flags : Config.Flags),
      (∃ config, Config.resolve host.environment flags host.tree = .ok config) ∨
        ∃ problem,
          Config.resolve host.environment flags host.tree = .error (.failure (.config problem)) := by
  intro answers
  have escapes : Config.resolve garbled.environment {} garbled.tree =
      .error (.defect (.notUtf8 ⟨0xFF, 0, 1, .invalidStart⟩)) := rfl
  rcases answers garbled {} with ⟨config, same⟩ | ⟨problem, same⟩
  · rw [escapes] at same
    cases same
  · rw [escapes] at same
    cases same

end Performance

end PluginCompiler
