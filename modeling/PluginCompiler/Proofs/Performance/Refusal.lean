import PluginCompiler.Proofs.Enrich.Sites
import PluginCompiler.Proofs.Generate.Abort
import PluginCompiler.Proofs.Performance.Preview

/-! Runs that are refused. What is wrong with the configuration, the document or the plan is found before
the first directory is made; whatever ends a run later is a fault of writing files or of running
commands. -/

set_option autoImplicit false

namespace PluginCompiler

def Failure.IsRefusal : Failure → Prop
  | .invalidUsage _ | .config _ | .spec _ | .unresolvedType _ _ | .enumValue _ _ _
  | .collision _ _ _ => True
  | .general _ | .template _ _ _ | .filesystem _ _ | .toolchain _ _ => False

def Abort.IsLate : Abort → Prop
  | .failure f => ¬ f.IsRefusal
  | .defect _ => True

def Abort.IsEarly : Abort → Prop
  | .failure f => f.IsRefusal
  | .defect _ => True

theorem Template.isLate_of_render {t : Template} {c : Context} {path : Option String} {abort : Abort}
    (failed : t.render c path = .error abort) : abort.IsLate := by
  rw [render, renderAs] at failed
  cases rendered : t.body.render Macro.call c.scope with
  | ok s =>
    rw [rendered] at failed
    cases failed
  | error fault =>
    rw [rendered] at failed
    cases failed
    cases fault with
    | undefined | noField => exact id
    | unfit | digits => trivial

theorem Output.isLate_of_render {o : Output} {target : Path} {abort : Abort}
    (failed : o.render target = .error abort) : abort.IsLate := by
  rw [render] at failed
  split at failed
  · next t context _ =>
    cases rendered : t.render context (some target.toString) with
    | ok text => simp [rendered, Except.map] at failed
    | error abort' =>
      rw [rendered] at failed
      cases failed
      exact Template.isLate_of_render rendered
  · cases failed

theorem Abort.IsSystem.isLate {abort : Abort} (system : abort.IsSystem) : abort.IsLate := by
  cases abort with
  | failure f => cases f <;> first | exact id | exact system.elim
  | defect d => trivial

theorem Generate.isLate_of_write {root : Path} {cwd : Place} {os : List Output} {t : FileTree}
    {abort : Abort} (failed : (write root os cwd t).result = .error abort) : abort.IsLate := by
  obtain system | ⟨_, _, unrendered⟩ := cause_of_write failed
  · exact system.isLate
  · exact Output.isLate_of_render unrendered

def Abort.IsTool : Abort → Prop
  | .failure (.toolchain _ _) | .defect _ => True
  | .failure _ => False

theorem Abort.IsTool.isLate {abort : Abort} (tool : abort.IsTool) : abort.IsLate := by
  cases abort with
  | failure f => cases f <;> first | exact id | exact tool.elim
  | defect d => trivial

theorem Abort.IsLate.ending {abort : Abort} (late : abort.IsLate) (screen : Screen) (advice : List Message) :
    (screen.ending advice abort).IsLate := by
  cases ended : screen.ending advice abort with
  | defect d => trivial
  | failure f =>
    obtain ⟨rfl, _⟩ := Screen.ending_eq_failure.mp ended
    exact late

theorem Command.isTool_of_check {c : Command} {ending : Ending} {abort : Abort}
    (failed : c.check ending = .error abort) : abort.IsTool := by
  obtain ⟨words, directory, timeout⟩ := c
  cases ending with
  | finished code stdout stderr =>
    by_cases well : code = 0
    · simp [check, well] at failed
    · simp only [check, well, ↓reduceIte, Except.error.injEq] at failed
      exact failed ▸ trivial
  | timedOut => exact Except.error.inj failed ▸ trivial
  | notFound | forbidden =>
    cases words with
    | nil => exact Except.error.inj failed ▸ trivial
    | cons program rest => exact Except.error.inj failed ▸ trivial

theorem Command.isTool_of_tryAll {endings : Endings} {n : Nat} {cs tried : List Command}
    {abort : Abort} (failed : tryAll endings n cs = (tried, .error abort)) : abort.IsTool := by
  induction cs generalizing n tried with
  | nil => cases failed
  | cons c rest ih =>
    rw [tryAll] at failed
    split at failed
    · next checked =>
      cases failed
      exact isTool_of_check checked
    · cases further : tryAll endings (n + 1) rest with
      | mk tried' result =>
        rw [further] at failed
        cases failed
        exact ih further

theorem Toolchain.isTool_of_run {tools : Toolchain} {root : Path} {cwd : Place} {t : FileTree}
    {endings : Endings} {abort : Abort}
    (failed : (tools.run root cwd t endings).result = .error abort) : abort.IsTool := by
  rw [run] at failed
  split at failed
  -- The vendoring is tried only after the formatting has ended well.
  · next formatted =>
    cases failed
    rw [format] at formatted
    split at formatted
    · cases formatted
      trivial
    · next files _ =>
      cases tried : Command.tryAll endings 0 (files.map tools.formatCommand) with
      | mk commands result =>
        cases result with
        | ok _ => simp [tried, Except.map] at formatted
        | error abort' =>
          simp only [tried, Except.map, Outcome.mk.injEq, Except.error.injEq] at formatted
          exact formatted.2 ▸ Command.isTool_of_tryAll tried
  · next commands _ _ =>
    dsimp only at failed
    rw [vendor] at failed
    split at failed
    · cases failed
      trivial
    · next command _ =>
      cases tried : Command.tryAll endings commands.length [command] with
      | mk commands result =>
        simp only [tried] at failed
        exact Command.isTool_of_tryAll (failed ▸ tried)

/-! ## Preparing -/

def Abort.IsConfig : Abort → Prop
  | .failure (.config _) | .defect _ => True
  | .failure _ => False

theorem Abort.IsConfig.isEarly {abort : Abort} (config : abort.IsConfig) : abort.IsEarly := by
  cases abort with
  | failure f => cases f <;> trivial
  | defect d => trivial

theorem Config.isConfig_of_entriesOf {path : Path} {content : List UInt8} {abort : Abort}
    (failed : entriesOf path content = .error abort) : abort.IsConfig := by
  rw [entriesOf] at failed
  split at failed
  · cases failed
    trivial
  · dsimp only at failed
    split at failed <;> cases failed <;> trivial

theorem Config.isConfig_of_readFile {path : Path} {cwd : Place} {t : FileTree} {abort : Abort}
    (failed : readFile path cwd t = .error abort) : abort.IsConfig := by
  rw [readFile] at failed
  split at failed
  · cases failed
    trivial
  · cases failed
  · exact isConfig_of_entriesOf failed

theorem Config.isConfig_of_readGlobal {e : Environment} {t : FileTree} {abort : Abort}
    (failed : readGlobal e t = .error abort) : abort.IsConfig := by
  rw [readGlobal, globalPath] at failed
  cases found : e.configDirectory with
  | error defect =>
    rw [found] at failed
    cases failed
    trivial
  | ok directory =>
    rw [found] at failed
    exact isConfig_of_readFile failed

theorem Config.isConfig_of_resolve {e : Environment} {flags : Flags} {t : FileTree} {abort : Abort}
    (failed : resolve e flags t = .error abort) : abort.IsConfig := by
  rw [resolve] at failed
  split at failed
  · next refused =>
    cases failed
    exact isConfig_of_readGlobal refused
  · next user _ =>
    split at failed
    · next refused =>
      cases failed
      exact isConfig_of_readFile refused
    · next project _ =>
      cases merged : ofLayers user project e flags with
      | ok config => simp [merged, Except.mapError] at failed
      | error problem =>
        rw [merged] at failed
        cases failed
        trivial

namespace Spec

theorem isEarly_of_dataOf {s : String} {abort : Abort} (failed : dataOf s = .error abort) :
    abort.IsEarly := by
  rw [dataOf] at failed
  split at failed
  · cases failed
    trivial
  · split at failed
    · cases failed
    · cases failed
      trivial
    · split at failed <;> cases failed <;> trivial
    · cases failed
      trivial
    · cases failed
      trivial

theorem isEarly_of_ofData {data : Value} {packageRoot location : String} {abort : Abort}
    (failed : ofData data packageRoot location = .error abort) : abort.IsEarly := by
  rw [ofData] at failed
  split at failed
  · split at failed
    · dsimp only at failed
      split at failed <;> cases failed
      trivial
    · cases failed
      trivial
  all_goals
    cases failed
    trivial

theorem isEarly_of_parse {source : Source} {packageRoot location : String} {abort : Abort}
    (failed : parse source packageRoot location = .error abort) : abort.IsEarly := by
  rw [parse] at failed
  split at failed
  · cases failed
    trivial
  · split at failed
    · next refused =>
      cases failed
      exact isEarly_of_dataOf refused
    · exact isEarly_of_ofData failed

theorem isEarly_of_load {path : Path} {shown packageRoot : String} {cwd : Place} {t : FileTree}
    {abort : Abort} (failed : load path shown packageRoot cwd t = .error abort) : abort.IsEarly := by
  rw [load, readFile] at failed
  cases found : path.file? cwd t with
  | error defect =>
    rw [found] at failed
    cases failed
    trivial
  | ok content =>
    rw [found] at failed
    cases content with
    | none =>
      cases failed
      trivial
    | some content =>
      dsimp only at failed
      split at failed
      · next refused =>
        cases failed
        exact isEarly_of_parse refused
      · cases failed

theorem isEarly_of_enrich {spec : Spec} {abort : Abort} (failed : spec.enrich = .error abort) :
    abort.IsEarly := by
  obtain ⟨_, _, _, _, _, refused⟩ := enrich_eq_error.mp failed
  cases refused with
  | type => trivial
  | value _ _ reported => cases reported <;> trivial

theorem isEarly_of_loadEnriched {path : Path} {packageRoot : String} {cwd : Place} {t : FileTree}
    {abort : Abort} (failed : loadEnriched path packageRoot cwd t = .error abort) :
    abort.IsEarly := by
  rw [loadEnriched] at failed
  split at failed
  · next refused =>
    cases failed
    exact isEarly_of_load refused
  · split at failed
    · next refused =>
      cases failed
      exact isEarly_of_enrich refused
    · cases failed

end Spec

namespace Performance

variable {host : Host} {file : Path} {package : String} {flags : Config.Flags} {abort : Abort}
  {failure : Failure}

theorem isEarly_of_configure (failed : configure host flags = .error abort) : abort.IsEarly := by
  rw [configure] at failed
  split at failed
  · next refused =>
    cases failed
    exact (Config.isConfig_of_resolve refused).isEarly
  · split at failed
    · cases failed
      trivial
    · cases failed

theorem cause_of_planned {spec : Spec} {source : List UInt8} {workspace : Path}
    (failed : planned spec source workspace = .error failure) :
    (∃ problem, failure = .invalidUsage problem) ∨
      ∃ path first second, failure = .collision path first second := by
  rw [planned, Spec.outputRoot] at failed
  split at failed
  · next rootless =>
    split at rootless
    · cases rootless
      cases failed
      exact .inl ⟨_, rfl⟩
    · cases rootless
  · rw [Spec.plan] at failed
    split at failed
    · cases failed
      exact .inr ⟨_, _, _, rfl⟩
    · cases failed

theorem isRefusal_of_planned {spec : Spec} {source : List UInt8} {workspace : Path}
    (failed : planned spec source workspace = .error failure) : failure.IsRefusal := by
  obtain ⟨_, rfl⟩ | ⟨_, _, _, rfl⟩ := cause_of_planned failed
  · trivial
  · trivial

variable {screen : Screen} {p : Performance}

theorem tell_abort_ne (ms : List Message) : (p.tell screen ms).abort ≠ some (.failure failure) := by
  rcases p.tell_abort screen ms with none_ | ⟨defect, crashed⟩
  · simp [none_]
  · simp [crashed]

theorem cause_of_write {config : Config} {workspace : Path} {spec : Spec} {source : List UInt8}
    (ended : (p.write screen host config workspace spec source).abort = some (.failure failure)) :
    (spec.generate source workspace host.environment.cwd host.tree).result = .error (.failure failure) ∨
      (Abort.failure failure).IsTool := by
  rw [write] at ended
  split at ended
  · next failed =>
    rw [fail_abort] at ended
    obtain ⟨rfl, _⟩ := Screen.ending_eq_failure.mp (Option.some.inj ended)
    exact .inl failed
  · rw [andThen] at ended
    split at ended
    · exact absurd ended (tell_abort_ne _)
    · split at ended
      · rw [runTools] at ended
        split at ended
        · exact absurd ended (tell_abort_ne _)
        · next failed =>
          rw [fail_abort] at ended
          obtain ⟨rfl, _⟩ := Screen.ending_eq_failure.mp (Option.some.inj ended)
          exact .inr (Toolchain.isTool_of_run failed)
      · exact absurd ended (tell_abort_ne _)

theorem isLate_of_write {config : Config} {workspace root : Path} {spec : Spec} {source : List UInt8}
    {os : List Output} (home : spec.outputRoot workspace = .ok root)
    (planned : spec.plan source = .ok os)
    (ended : (p.write screen host config workspace spec source).abort = some abort) :
    abort.IsLate := by
  cases abort with
  | defect d => trivial
  | failure f =>
    obtain failed | tool := cause_of_write ended
    · rw [Spec.generate_of_plan home planned] at failed
      exact Generate.isLate_of_write failed
    · exact tool.isLate

variable {file : String} {workspace : Option String} {skip : Bool}

theorem crashed_of_unheard (package : String) (unheard : ¬ Heard screen host (.ofString file) ⟨workspace, skip⟩) :
    let run := (Task.generate file package workspace skip).perform screen host
    (∃ defect, run.abort = some (.defect defect)) ∧ run.tree = host.tree ∧ run.commands = [] := by
  by_cases nul : (Path.ofString file).hasNul = true
  · have performed : (Task.generate file package workspace skip).perform screen host =
        { tree := host.tree, abort := some (.defect .nulInPath) } := if_pos nul
    rw [performed]
    exact ⟨⟨_, rfl⟩, rfl, rfl⟩
  have performed : (Task.generate file package workspace skip).perform screen host =
      generate screen host (.ofString file) package ⟨workspace, skip⟩ := if_neg nul
  simp only [Heard, not_forall] at unheard
  obtain ⟨config, directory, configured, m, member, untaken⟩ := unheard
  obtain ⟨defect, crashed⟩ := tell_of_untaken (fun takes => untaken (takes m member)) (start host)
  have told : generate screen host (.ofString file) package ⟨workspace, skip⟩ =
      (start host).tell screen (loadingNotes directory (.ofString file)) := by
    rw [generate, configured]
    exact andThen_of_ended crashed _
  rw [performed, told]
  exact ⟨⟨defect, crashed⟩, rfl, rfl⟩

def typedBy (type : String) : String :=
  "\x7btriggers: \x7bt: \x7boutput: \x7bp: \x7btype: " ++ type ++ "\x7d\x7d\x7d\x7d\x7d"

/-- A generated package beside a spec whose only parameter has a type that is not declared. -/
def untyped : Host where
  tree := ⟨[(["s.yaml"], .file (Text.Utf8.encode (typedBy "row"))),
    (["p"], .directory), (["p", "Makefile"], .file Spec.handWritten)]⟩

def isUntyped (abort : Option Abort) (token entity : String) : Bool :=
  match abort with
  | some (.failure (.unresolvedType token' entity')) => token' == token && entity' == entity
  | _ => false

theorem eq_of_isUntyped {abort : Option Abort} {token entity : String}
    (is : isUntyped abort token entity = true) :
    abort = some (.failure (.unresolvedType token entity)) := by
  unfold isUntyped at is
  split at is
  · simp only [Bool.and_eq_true, beq_iff_eq] at is
    rw [is.1, is.2]
  · cases is

end Performance

end PluginCompiler
