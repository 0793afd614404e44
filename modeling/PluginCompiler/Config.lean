import PluginCompiler.Environment
import PluginCompiler.Json.Reader
import PluginCompiler.Text.Blank
import PluginCompiler.Text.LowerCase

/-! The configuration of a run. It is read in layers: what the user has set for all projects, what
the project has set, variables of the environment, and flags of the command line. Each layer
overrides those before it, key by key, and only the result is checked. -/

set_option autoImplicit false

namespace PluginCompiler

open Value

structure Config where
  workspaceRoot : Option Path := none
  runToolchain : Bool := true
  formatter : List String := ["goimports", "-w"]
  vendorInit : List String := ["dep", "init"]
  vendorUpdate : List String := ["dep", "ensure"]
  /-- Files that show that vendored code has been set up. -/
  vendorManifests : List String := ["Gopkg.toml", "manifest.json"]
  /-- Seconds that a command may take. -/
  timeout : Int := 300
  deriving DecidableEq, Repr, Inhabited

namespace Config

abbrev Entries := List (Value × Value)

def asPath : Value → Checked Path
  | .text s => .valid (Path.ofString s)
  | _ => .fault .pathType

def default_ : Config := {}

def ofEntries (e : Entries) : Checked Config :=
  Config.mk
    <$> field e "workspace_root" default_.workspaceRoot (asOptional asPath)
    <*> field e "run_toolchain" default_.runToolchain asBool
    <*> field e "formatter" default_.formatter (asList asText)
    <*> field e "vendor_init" default_.vendorInit (asList asText)
    <*> field e "vendor_update" default_.vendorUpdate (asList asText)
    <*> field e "vendor_manifests" default_.vendorManifests (asList asText)
    <*> field e "toolchain_timeout" default_.timeout asInt

def decode : Value → Checked Config := asRecord ofEntries

def refuse {α : Type} (problem : ConfigProblem) : Except Abort α :=
  .error (.failure (.config problem))

def entriesOf (path : Path) (content : List UInt8) : Except Abort Entries :=
  match Text.Utf8.decode content with
  | .error e => .error (.defect (.notUtf8 e))
  | .ok s =>
    let source := Text.unifyNewlines s.toList
    match Json.read source with
    | .error (.malformed fault) => refuse (.badFile path.toString (fault.message source))
    | .error (.digits fault) => .error (.defect (.digits fault))
    | .ok (.map entries) => .ok entries
    | .ok _ => refuse (.badFile path.toString "expected a JSON object")

/-- The entries of a configuration file; one that is missing has none. -/
def readFile (path : Path) (cwd : Place) (t : FileTree) : Except Abort Entries :=
  match path.file? cwd t with
  | .error defect => .error (.defect defect)
  | .ok none => .ok []
  | .ok (some content) => entriesOf path content

def globalPath (e : Environment) : Except Abort Path :=
  match e.configDirectory with
  | .error defect => .error (.defect defect)
  | .ok directory => .ok (directory.child "config.json")

def readGlobal (e : Environment) (t : FileTree) : Except Abort Entries :=
  match globalPath e with
  | .error abort => .error abort
  | .ok path => readFile path e.cwd t

def readProject (directory : Path) (cwd : Place) (t : FileTree) : Except Abort Entries :=
  readFile (directory.child "plugspec.json") cwd t

structure Flags where
  workspace : Option String := none
  skipToolchain : Bool := false
  deriving DecidableEq, Repr, Inhabited

def override (below above : Entries) : Entries :=
  above.foldl (fun done (k, v) => put k v done) below

def workspaceEntry (s : String) : Value × Value := (.text "workspace_root", .text s)

def skipEntry : Value × Value := (.text "run_toolchain", .bool false)

def switchWords : List String := ["1", "true", "yes", "on"]

/-- An empty workspace counts as none here, and a switch can only be turned on. -/
def environmentLayer (e : Environment) : Entries :=
  let workspace := e.text "PLUGSPEC_WORKSPACE"
  (if workspace = "" then [] else [workspaceEntry workspace]) ++
    (if switchWords.contains (Text.lower (e.text "PLUGSPEC_SKIP_TOOLCHAIN")) then [skipEntry] else [])

/-- An empty workspace counts as one here. -/
def flagLayer (f : Flags) : Entries :=
  f.workspace.toList.map workspaceEntry ++ (if f.skipToolchain then [skipEntry] else [])

def merged (user project : Entries) (e : Environment) (f : Flags) : Entries :=
  override (override (override user project) (environmentLayer e)) (flagLayer f)

def ofLayers (user project : Entries) (e : Environment) (f : Flags) : Except ConfigProblem Config :=
  match ofEntries (merged user project e f) with
  | .valid config => .ok config
  | .invalid issues => .error (.malformed issues)

def resolve (e : Environment) (f : Flags) (t : FileTree) : Except Abort Config :=
  match readGlobal e t with
  | .error abort => .error abort
  | .ok user =>
    match readProject e.workingDirectory e.cwd t with
    | .error abort => .error abort
    | .ok project => (ofLayers user project e f).mapError fun problem => .failure (.config problem)

/-- The directory that package roots are seen from: the configured one, or else the sources of the
first directory of `GOPATH`, or else the working directory. -/
def workspace (c : Config) (e : Environment) : Except Defect Path :=
  match c.workspaceRoot with
  | some path => e.expand path
  | none =>
    if e.text "GOPATH" = "" then .ok e.workingDirectory
    else
      let first := (e.text "GOPATH").toList.takeWhile (· != ':')
      (e.expand (Path.ofString (String.ofList first))).map (·.child "src")

end Config

end PluginCompiler
