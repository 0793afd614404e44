import PluginCompiler.Config
import PluginCompiler.Generate

/-! The commands that are run over a generated tree: the formatter once for each source file, and
then the vendoring tool. The first command that does not end well is the last one tried. -/

set_option autoImplicit false

namespace PluginCompiler

/-- A command and where it is run; without a directory it is run where the program is. -/
structure Command where
  words : List String
  directory : Option Path
  timeout : Int
  deriving DecidableEq, Repr

inductive Ending where
  | finished (code : Int) (stdout stderr : String)
  | notFound
  | timedOut
  | forbidden
  deriving DecidableEq, Repr

/-- How commands end, by the number of those tried before. -/
abbrev Endings := Nat → Ending

/-- Endings in order; the last one is repeated, and without any all goes well. -/
def Endings.ofList (es : List Ending) : Endings := fun n =>
  (es[n]?).getD ((es.getLast?).getD (.finished 0 "" ""))

namespace Command

def check (c : Command) (e : Ending) : Except Abort Unit :=
  let fail (output : String) : Except Abort Unit := .error (.failure (.toolchain c.words output))
  match e, c.words with
  | .finished code stdout stderr, _ => if code = 0 then .ok () else fail (stdout ++ stderr)
  | .timedOut, _ => fail s!"timed out after {c.timeout}s"
  | _, [] => .error (.defect .emptyCommand)
  | .notFound, program :: _ => fail s!"{program} not found on PATH"
  | .forbidden, program :: _ => fail (SystemFault.noPermission.messageAt program)

def record (c : Command) : Record :=
  ⟨.info, "plugspec.toolchain", "Running " ++ " ".intercalate c.words⟩

def tryAll (es : Endings) : Nat → List Command → List Command × Except Abort Unit
  | _, [] => ([], .ok ())
  | n, c :: rest =>
    match c.check (es n) with
    | .error abort => ([c], .error abort)
    | .ok () =>
      let (tried, result) := tryAll es (n + 1) rest
      (c :: tried, result)

end Command

structure Toolchain where
  config : Config
  packageRoot : String

namespace Toolchain

/-- The names from a root of all Go files and directories below it, vendored code apart. -/
def sourceNames (entries : List (List String × Entry)) : List (List String) :=
  let isSource (parts : List String) : Bool :=
    parts.getLast?.any (·.endsWith ".go") && !parts.contains Plan.vendorDirectory
  ((entries.map (·.1)).filter isSource).mergeSort Path.precedes

def unlisted? (root : Path) (entries : List (List String × Entry)) : Option Path :=
  ((entries.filter (·.2 = .directory)).map fun e => root.join ⟨.relative, e.1⟩).find? Path.isLong

def sourceFiles (root : Path) (cwd : Place) (t : FileTree) : Except Defect (List Path) :=
  match root.isDirectory? cwd t with
  | .error defect => .error defect
  | .ok false => .ok []
  | .ok true =>
    match t.resolve (root.start cwd) root.parts with
    | .error _ => .ok []
    | .ok place =>
      match unlisted? root (t.below place) with
      | some directory => .error (.system .nameTooLong directory.toString)
      | none => .ok ((sourceNames (t.below place)).map fun parts => root.join ⟨.relative, parts⟩)

def formatCommand (tools : Toolchain) (file : Path) : Command :=
  ⟨tools.config.formatter ++ ["-srcdir", tools.packageRoot, file.toString], none,
    tools.config.timeout⟩

def anyExists (root : Path) (cwd : Place) (t : FileTree) : List String → Except Defect Bool
  | [] => .ok false
  | name :: rest =>
    match (root.child name).exists? cwd t with
    | .error defect => .error defect
    | .ok true => .ok true
    | .ok false => anyExists root cwd t rest

/-- Vendored code is set up once and brought up to date later. -/
def vendorCommand (tools : Toolchain) (root : Path) (cwd : Place) (t : FileTree) :
    Except Defect Command :=
  (anyExists root cwd t tools.config.vendorManifests).map fun isSetUp =>
    ⟨if isSetUp then tools.config.vendorUpdate else tools.config.vendorInit, some root,
      tools.config.timeout⟩

structure Outcome (α : Type) where
  commands : List Command
  result : Except Abort α

def Outcome.records {α : Type} (o : Outcome α) : List Record := o.commands.map Command.record

def format (tools : Toolchain) (root : Path) (cwd : Place) (t : FileTree) (es : Endings) :
    Outcome Nat :=
  match sourceFiles root cwd t with
  | .error defect => ⟨[], .error (.defect defect)⟩
  | .ok files =>
    let (tried, result) := Command.tryAll es 0 (files.map tools.formatCommand)
    ⟨tried, result.map fun _ => files.length⟩

def vendor (tools : Toolchain) (root : Path) (cwd : Place) (t : FileTree) (es : Endings) (n : Nat) :
    Outcome Unit :=
  match tools.vendorCommand root cwd t with
  | .error defect => ⟨[], .error (.defect defect)⟩
  | .ok command =>
    let (tried, result) := Command.tryAll es n [command]
    ⟨tried, result⟩

def run (tools : Toolchain) (root : Path) (cwd : Place) (t : FileTree) (es : Endings) :
    Outcome Unit :=
  match tools.format root cwd t es with
  | ⟨tried, .error abort⟩ => ⟨tried, .error abort⟩
  | ⟨tried, .ok _⟩ =>
    let after := tools.vendor root cwd t es tried.length
    ⟨tried ++ after.commands, after.result⟩

end Toolchain

end PluginCompiler
