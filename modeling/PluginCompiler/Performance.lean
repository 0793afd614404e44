import PluginCompiler.Overview
import PluginCompiler.Request
import PluginCompiler.Spec.Parse
import PluginCompiler.Toolchain

/-! What becomes of a task on a machine: the tree afterwards, what the user is told, the commands
that were tried, and why the task did not finish if it did not. A message that cannot be shown ends
the task where it is. -/

set_option autoImplicit false

namespace PluginCompiler

structure Host where
  environment : Environment := {}
  tree : FileTree := .empty
  isTerminal : Bool := false
  endings : Endings := .ofList []
  time : String := ""
  typesetter : Typesetter := .standard
  wording : Failure → String := Failure.message

def Host.screen (host : Host) (manner : Manner) : Screen where
  verbosity := manner.verbosity
  format := manner.choice.settle manner.noColor host.isTerminal host.environment
  hasColor := !(manner.noColor || host.environment.refusesColor)
  typesetter := host.typesetter
  wording := host.wording

structure Performance where
  tree : FileTree
  table : Option Table := none
  messages : List Message := []
  commands : List Command := []
  abort : Option Abort := none

namespace Performance

def andThen (p : Performance) (next : Performance → Performance) : Performance :=
  if p.abort.isSome then p else next p

def tell (screen : Screen) (ms : List Message) (p : Performance) : Performance :=
  let (shown, refused) := screen.deliver ms
  { p with messages := p.messages ++ shown, abort := refused.map .defect }

def log (records : List Record) (p : Performance) : Performance :=
  { p with messages := p.messages ++ records.map .record }

def display (screen : Screen) (table : Option Table) (p : Performance) : Performance :=
  match table.mapM screen.tableLines with
  | .error defect => { p with abort := some (.defect defect) }
  | .ok _ => { p with table }

/-- The end of a task that failed. A failure is reported, with advice if there is any. -/
def fail (screen : Screen) (advice : List Message) (abort : Abort) (p : Performance) : Performance :=
  match abort with
  | .defect d => { p with abort := some (.defect d) }
  | .failure f =>
    (p.tell screen (.error (screen.wording f) :: advice)).andThen fun p =>
      { p with abort := some (.failure f) }

def configure (host : Host) (flags : Config.Flags) : Except Abort (Config × Path) :=
  match Config.resolve host.environment flags host.tree with
  | .error abort => .error abort
  | .ok config =>
    match config.workspace host.environment with
    | .error defect => .error (.defect defect)
    | .ok workspace => .ok (config, workspace)

def toolAdvice (root : Path) : List Message :=
  [.info s!"The plugin tree was generated in {root}; only the toolchain step failed.",
   .suggest "Re-run with --skip-toolchain to generate without goimports and dep."]

def runTools (screen : Screen) (host : Host) (tools : Toolchain) (root : Path) (p : Performance) :
    Performance :=
  let outcome := tools.run root host.environment.cwd p.tree host.endings
  let p := { p with commands := outcome.commands }.log outcome.records
  match outcome.result with
  | .ok () => p.tell screen [.success "Formatted sources and vendored dependencies."]
  | .error abort => p.fail screen (toolAdvice root) abort

def skipAdvice (root : Path) : List Message :=
  [.info "Skipping goimports and dep.",
   .suggest s!"Format and vendor later: cd {root} && dep ensure"]

def write (screen : Screen) (host : Host) (config : Config) (workspace : Path) (spec : Spec)
    (source : List UInt8) (p : Performance) : Performance :=
  let outcome := spec.generate source workspace host.environment.cwd host.tree
  let p := { p with tree := outcome.tree }.log outcome.records
  match outcome.result with
  | .error abort => p.fail screen [] abort
  | .ok done =>
    (p.tell screen (done.messages spec.name)).andThen fun p =>
      if config.runToolchain then p.runTools screen host ⟨config, spec.packageRoot⟩ done.root
      else p.tell screen (skipAdvice done.root)

def loadingNotes (workspace file : Path) : List Message :=
  [.debug s!"Workspace root: {workspace}", .info s!"Loading spec from: {file}"]

def generate (screen : Screen) (host : Host) (file : Path) (packageRoot : String)
    (flags : Config.Flags) : Performance :=
  let start : Performance := { tree := host.tree }
  match configure host flags with
  | .error abort => start.fail screen [] abort
  | .ok (config, workspace) =>
    (start.tell screen (loadingNotes workspace file)).andThen fun p =>
      match Spec.loadEnriched file packageRoot host.environment.cwd host.tree with
      | .error abort => p.fail screen [] abort
      | .ok (spec, source) => p.write screen host config workspace spec source

def planned (spec : Spec) (source : List UInt8) (workspace : Path) :
    Except Failure (Path × List Output) :=
  match spec.outputRoot workspace with
  | .error failure => .error failure
  | .ok root => (spec.plan source).map fun os => (root, os)

def plan (screen : Screen) (host : Host) (file : Path) (packageRoot : String)
    (flags : Config.Flags) : Performance :=
  let start : Performance := { tree := host.tree }
  match configure host flags with
  | .error abort => start.fail screen [] abort
  | .ok (_, workspace) =>
    match Spec.loadEnriched file packageRoot host.environment.cwd host.tree with
    | .error abort => start.fail screen [] abort
    | .ok (spec, source) =>
      match planned spec source workspace with
      | .error failure => start.fail screen [] (.failure failure)
      | .ok (root, os) =>
        match Plan.table root os host.environment.cwd host.tree with
        | .error defect => start.fail screen [] (.defect defect)
        | .ok table => start.display screen table

def tableOr (isEmpty : Bool) (what : String) (table : Table) : Option Table × List Message :=
  if isEmpty then (none, [.info s!"No {what} defined in this spec."]) else (some table, [])

def look (spec : Spec) : View → Except Defect (Option Table × List Message)
  | .summary => spec.summaryTable.map fun table => (some table, [])
  | .types => .ok (tableOr spec.customTypes.entries.isEmpty "custom types" spec.typesTable)
  | .handlers kind =>
    .ok (tableOr (kind.handlers spec).entries.isEmpty (kind.word ++ "s") (spec.handlersTable kind))
  | .connection =>
    let (table, messages) :=
      tableOr spec.connection.entries.isEmpty "connection parameters" spec.connectionTable
    .ok (table, messages ++ [.info s!"Cache key: {spec.connectionKey}"])

def inspect (screen : Screen) (host : Host) (view : View) (file : Path) : Performance :=
  let start : Performance := { tree := host.tree }
  match Spec.loadEnriched file "" host.environment.cwd host.tree with
  | .error abort => start.fail screen [] abort
  | .ok (spec, _) =>
    match look spec view with
    | .error defect => start.fail screen [] (.defect defect)
    | .ok (table, messages) => (start.display screen table).andThen (·.tell screen messages)

def ofTask (screen : Screen) (host : Host) : Task → Performance
  | .generate file package workspace skipToolchain =>
    generate screen host (.ofString file) package ⟨workspace, skipToolchain⟩
  | .plan file package workspace => plan screen host (.ofString file) package ⟨workspace, false⟩
  | .inspect view file => inspect screen host view (.ofString file)

end Performance

def Task.file : Task → Path
  | .generate file .. | .plan file .. | .inspect _ file => .ofString file

/-- A task on a machine. A NUL in the name of the spec is refused before anything else. -/
def Task.perform (task : Task) (screen : Screen) (host : Host) : Performance :=
  if task.file.hasNul then { tree := host.tree, abort := some (.defect .nulInPath) }
  else .ofTask screen host task

end PluginCompiler
