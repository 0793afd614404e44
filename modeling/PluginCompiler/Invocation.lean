import PluginCompiler.Performance

/-! The program as a function of its command line and of the machine that it runs on. -/

set_option autoImplicit false

namespace PluginCompiler

/-- What a run of the program leaves behind. It has no exit code if it could not even log an
unexpected situation. -/
structure Invocation where
  tree : FileTree
  output : List String := []
  errors : List String := []
  commands : List Command := []
  exit : Except Defect Nat

namespace Invocation

def logDefect (host : Host) (tree : FileTree) (d : Defect) : FileTree × Except Defect Path :=
  match host.environment.makeDataDirectory tree with
  | (tree, .error defect) => (tree, .error defect)
  | (tree, .ok directory) =>
    let logs := directory.child "logs"
    match logs.makeDirs host.environment.cwd tree with
    | (tree, some fault) => (tree, .error fault.defect)
    | (tree, none) =>
      let log := logs.child s!"crash-{host.time}.log"
      match log.write host.environment.cwd (Text.Utf8.encode (d.message ++ "\n")) tree with
      | .error fault => (tree, .error fault.defect)
      | .ok tree => (tree, .ok log)

def ofPerformance (host : Host) (screen : Screen) (p : Performance) : Invocation :=
  let output := (p.table.bind fun t => (screen.tableLines t).toOption).getD []
  let errors := screen.shownLines p.messages
  match p.abort with
  | none => ⟨p.tree, output, errors, p.commands, .ok 0⟩
  | some (.failure f) => ⟨p.tree, output, errors, p.commands, .ok f.exitCode⟩
  | some (.defect d) =>
    match logDefect host p.tree d with
    | (tree, .error defect) => ⟨tree, output, errors, p.commands, .error defect⟩
    | (tree, .ok log) =>
      match screen.lines (.error s!"Unexpected error. Debug log: {log}") with
      | .error defect => ⟨tree, output, errors, p.commands, .error defect⟩
      | .ok last => ⟨tree, output, errors ++ last, p.commands, .ok 1⟩

def usage : List String :=
  ["Usage: plugspec [OPTIONS] COMMAND [ARGS]...",
   "Commands: generate, plan, inspect (summary, types, actions, triggers, connection)"]

def version : String := "plugspec 0.1.0"

def ofWords (host : Host) (words : List String) : Invocation :=
  match Request.ofWords words with
  | .version => { tree := host.tree, output := [version], exit := .ok 0 }
  | .help => { tree := host.tree, output := usage, exit := .ok 0 }
  | .misuse => { tree := host.tree, errors := usage, exit := .ok 2 }
  | .perform manner task =>
    .ofPerformance host (host.screen manner) (task.perform (host.screen manner) host)

end Invocation

end PluginCompiler
