import PluginCompiler.FileTree

/-! What a run knows of the machine it runs on: variables, accounts, the kind of system and the
working directory, and the directories that follow from them. -/

set_option autoImplicit false

namespace PluginCompiler

structure Environment where
  bindings : List (String × String) := []
  account : String := "root"
  homes : List (String × String) := [("root", "/root")]
  system : String := "Linux"
  cwd : Place := []
  deriving Repr, Inhabited

namespace Environment

def value? (e : Environment) (name : String) : Option String := e.bindings.lookup name

/-- The value of a variable; an unset one is empty. -/
def text (e : Environment) (name : String) : String := (e.value? name).getD ""

def workingDirectory (e : Environment) : Path := ⟨.single, e.cwd⟩

/-- The home directory of an account. The user's own, which has no name here, can be set by a
variable. -/
def homeOf? (e : Environment) (account : String) : Option String :=
  if account = "" then (e.value? "HOME").or (e.homes.lookup e.account)
  else e.homes.lookup account

/-- A home directory as a path. One that is written with a tilde leads nowhere. -/
def homePath (home : String) : Except Defect Path :=
  let trimmed := String.ofList (Text.trimRight (· == '/') home.toList)
  if trimmed.toList.head? = some '~' then .error .homeUnknown
  else .ok (if trimmed = "" then ⟨.single, []⟩ else Path.ofString trimmed)

def expand (e : Environment) (p : Path) : Except Defect Path :=
  match p.root, p.parts with
  | .relative, first :: rest =>
    match first.toList with
    | '~' :: account =>
      if account.contains '\x00' then .error .nulInPath
      else match e.homeOf? (String.ofList account) with
        | none => .error .homeUnknown
        | some home => (homePath home).map fun base => base.join ⟨.relative, rest⟩
    | _ => .ok p
  | _, _ => .ok p

def home (e : Environment) : Except Defect Path := e.expand ⟨.relative, ["~"]⟩

def programName : String := "plugspec"

def separatesBases (e : Environment) : Bool := e.system == "Linux" || e.system.endsWith "BSD"

def base (e : Environment) (name : String) (inHome : List String) : Except Defect Path :=
  if e.text name = "" then e.home.map fun h => h.join ⟨.relative, inHome⟩
  else .ok (Path.ofString (e.text name))

def commonBase (e : Environment) : Except Defect Path := e.home.map (·.child ("." ++ programName))

def configDirectory (e : Environment) : Except Defect Path :=
  if e.separatesBases then (e.base "XDG_CONFIG_HOME" [".config"]).map (·.child programName)
  else e.commonBase

def dataDirectory (e : Environment) : Except Defect Path :=
  if e.separatesBases then (e.base "XDG_DATA_HOME" [".local", "share"]).map (·.child programName)
  else e.commonBase.map (·.child "logs")

/-- The data directory, made if it is missing. What could be made stays, even if not all of it
could. -/
def makeDataDirectory (e : Environment) (t : FileTree) : FileTree × Except Defect Path :=
  match e.dataDirectory with
  | .error defect => (t, .error defect)
  | .ok path =>
    match path.makeDirs e.cwd t with
    | (made, none) => (made, .ok path)
    | (made, some fault) => (made, .error fault.defect)

end Environment

end PluginCompiler
