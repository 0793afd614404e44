import PluginCompiler.Plan

/-! Writing the files of a spec into a tree. A run stops at the first file that cannot be rendered or
written; what was written before stays. -/

set_option autoImplicit false

namespace PluginCompiler

inductive Level where
  | debug
  | info
  | warning
  | error
  | critical
  deriving DecidableEq, Repr

def Level.word : Level → String
  | .debug => "DEBUG"
  | .info => "INFO"
  | .warning => "WARNING"
  | .error => "ERROR"
  | .critical => "CRITICAL"

structure Record where
  level : Level
  logger : String
  text : String
  deriving DecidableEq, Repr

namespace Generate

def logger : String := "plugspec.generator.orchestrator"

/-- A run so far. Lists have their latest member first. -/
structure Progress where
  tree : FileTree
  records : List Record
  written : List Path
  kept : List Path

def Progress.note (p : Progress) (level : Level) (text : String) : Progress :=
  { p with records := ⟨level, logger, text⟩ :: p.records }

def makeAbort (path : Path) : Path.MakeFault → Abort
  | .system fault _ => .failure (.filesystem path.toString fault.reason)
  | .nul => .defect .nulInPath

def emit (root : Path) (cwd : Place) (p : Progress) (o : Output) : Progress × Option Abort :=
  let target := root.join o.path
  match o.willWrite root cwd p.tree with
  | .error defect => (p, some (.defect defect))
  | .ok false => ({ p.note .debug s!"Keeping existing {target}" with kept := o.path :: p.kept }, none)
  | .ok true =>
    match o.render target with
    | .error abort => (p, some abort)
    | .ok content =>
      -- A file is rendered before its directory is made, so that a failure leaves none behind.
      match target.parent.makeDirs cwd p.tree with
      | (tree, some fault) => ({ p with tree := tree }, some (makeAbort target.parent fault))
      | (tree, none) =>
        match target.write cwd content tree with
        | .error fault => ({ p with tree := tree }, some (makeAbort target fault))
        | .ok tree =>
          ({ { p with tree := tree }.note .debug s!"Wrote {target}" with
              written := o.path :: p.written }, none)

def emitAll (root : Path) (cwd : Place) : Progress → List Output → Progress × Option Abort
  | p, [] => (p, none)
  | p, o :: rest =>
    match emit root cwd p o with
    | (p, some abort) => (p, some abort)
    | (p, none) => emitAll root cwd p rest

structure Report where
  root : Path
  written : List Path
  kept : List Path
  deriving DecidableEq, Repr

structure Outcome where
  tree : FileTree
  records : List Record
  result : Except Abort Report

def write (root : Path) (os : List Output) (cwd : Place) (tree : FileTree) : Outcome :=
  match root.makeDirs cwd tree with
  | (tree, some fault) => ⟨tree, [], .error (makeAbort root fault)⟩
  | (tree, none) =>
    match emitAll root cwd ⟨tree, [], [], []⟩ os with
    | (p, some abort) => ⟨p.tree, p.records.reverse, .error abort⟩
    | (p, none) =>
      let p := p.note .info
        s!"Generated {root}: {p.written.length} written, {p.kept.length} kept"
      ⟨p.tree, p.records.reverse, .ok ⟨root, p.written.reverse, p.kept.reverse⟩⟩

end Generate

/-- Writes an enriched spec into a tree. Nothing is touched before the whole plan is known. -/
def Spec.generate (spec : Spec) (source : List UInt8) (workspace : Path) (cwd : Place)
    (tree : FileTree) : Generate.Outcome :=
  match spec.outputRoot workspace with
  | .error failure => ⟨tree, [], .error (.failure failure)⟩
  | .ok root =>
    match spec.plan source with
    | .error failure => ⟨tree, [], .error (.failure failure)⟩
    | .ok os => Generate.write root os cwd tree

end PluginCompiler
