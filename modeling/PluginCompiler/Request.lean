import PluginCompiler.Arguments
import PluginCompiler.Console

/-! What a command line asks for. -/

set_option autoImplicit false

namespace PluginCompiler

inductive View where
  | summary
  | types
  | handlers (kind : HandlerKind)
  | connection
  deriving DecidableEq, Repr

inductive Task where
  | generate (spec package : String) (workspace : Option String) (skipToolchain : Bool)
  | plan (spec package : String) (workspace : Option String)
  | inspect (view : View) (spec : String)
  deriving DecidableEq, Repr

structure Manner where
  choice : FormatChoice := .auto
  noColor : Bool := false
  verbosity : Verbosity := {}
  deriving DecidableEq, Repr, Inhabited

inductive Request where
  | perform (manner : Manner) (task : Task)
  | version
  | help
  | misuse
  deriving DecidableEq, Repr

namespace Request

open Arguments

def helpFlag : Flag := { name := "help" }

def specFlag : Flag := { name := "spec", letter := some 's', takesValue := true }

def packageFlag : Flag := { name := "package", letter := some 'p', takesValue := true }

def workspaceFlag : Flag := { name := "workspace", letter := some 'w', takesValue := true }

def mannerFlags : List Flag :=
  [{ name := "version" }, { name := "json" }, { name := "plain" }, { name := "no-color" },
   { name := "quiet", letter := some 'q' }, { name := "verbose", letter := some 'v' }, helpFlag]

/-- JSON is preferred to plain text if both are asked for. -/
def mannerOf (given : List Given) : Manner where
  choice :=
    if isGiven given "json" then .json else if isGiven given "plain" then .plain else .auto
  noColor := isGiven given "no-color"
  verbosity := ⟨isGiven given "quiet", isGiven given "verbose"⟩

def taskWith (flags : List Flag) (build : List Given → Option Task) (manner : Manner)
    (words : List String) : Request :=
  match read (helpFlag :: flags) true words with
  | none => misuse
  | some (given, extra) =>
    if isGiven given "help" then help
    else match extra, build given with
      | [], some task => perform manner task
      | _, _ => misuse

def generate : Manner → List String → Request :=
  taskWith [specFlag, packageFlag, workspaceFlag, { name := "skip-toolchain" }] fun given => do
    return .generate (← value? given "spec") (← value? given "package") (value? given "workspace")
      (isGiven given "skip-toolchain")

def plan : Manner → List String → Request :=
  taskWith [specFlag, packageFlag, workspaceFlag] fun given => do
    return .plan (← value? given "spec") (← value? given "package") (value? given "workspace")

def viewOf? : String → Option View
  | "summary" => some .summary
  | "types" => some .types
  | "actions" => some (.handlers .action)
  | "triggers" => some (.handlers .trigger)
  | "connection" => some .connection
  | _ => none

def inspect (manner : Manner) (words : List String) : Request :=
  match read [helpFlag] false words with
  | none => misuse
  | some (given, rest) =>
    if isGiven given "help" then help
    else match rest with
      | [] => misuse
      | name :: rest =>
        match viewOf? name with
        | none => misuse
        | some view =>
          taskWith [specFlag] (fun given => (value? given "spec").map (.inspect view)) manner rest

def command (manner : Manner) (name : String) (words : List String) : Request :=
  match name with
  | "generate" => generate manner words
  | "plan" => plan manner words
  | "inspect" => inspect manner words
  | _ => misuse

/-- Questions for the version or for help are answered before anything else, the first one of
them. -/
def ofWords (words : List String) : Request :=
  match read mannerFlags false words with
  | none => misuse
  | some (given, rest) =>
    match given.find? fun g => g.name == "version" || g.name == "help" with
    | some g => if g.name = "version" then version else help
    | none =>
      match rest with
      | [] => misuse
      | name :: rest => command (mannerOf given) name rest

end Request

end PluginCompiler
