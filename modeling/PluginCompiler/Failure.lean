import PluginCompiler.Validation
import PluginCompiler.Yaml.Document

/-! Everything that can go wrong, by cause. A `Failure` is reported with a message and an exit code
of its own; a `Defect` is a situation that no part of the program expects. -/

set_option autoImplicit false

namespace PluginCompiler

inductive SystemFault where
  | notFound
  | noPermission
  | alreadyExists
  | notDirectory
  | isDirectory
  | nameTooLong
  deriving DecidableEq, Repr

namespace SystemFault

def number : SystemFault → Nat
  | notFound => 2
  | noPermission => 13
  | alreadyExists => 17
  | notDirectory => 20
  | isDirectory => 21
  | nameTooLong => 36

def reason : SystemFault → String
  | notFound => "No such file or directory"
  | noPermission => "Permission denied"
  | alreadyExists => "File exists"
  | notDirectory => "Not a directory"
  | isDirectory => "Is a directory"
  | nameTooLong => "File name too long"

def messageAt (f : SystemFault) (path : String) : String :=
  s!"[Errno {f.number}] {f.reason}: {Text.shown path}"

end SystemFault

inductive Defect where
  | value (fault : Yaml.ValueFault)
  | digits (fault : Text.DigitFault)
  | noSuchCharacter (number : Nat)
  | nulInPath
  | notUtf8 (error : Text.Utf8.DecodeError)
  | system (fault : SystemFault) (path : String)
  | homeUnknown
  | emptyCommand
  | unfitOperand
  | markup (reason : String)
  deriving DecidableEq, Repr

def Defect.message : Defect → String
  | .value fault => fault.message
  | .digits fault => fault.message
  | .noSuchCharacter number =>
    if number < 0x80000000 then "chr() arg not in range(0x110000)"
    else "Python int too large to convert to C int"
  | .nulInPath => "embedded null byte"
  | .notUtf8 error => error.message
  | .system fault path => fault.messageAt path
  | .homeUnknown => "Could not determine home directory."
  | .emptyCommand => "list index out of range"
  | .unfitOperand => "unsupported operand"
  | .markup reason => reason

inductive SpecProblem where
  | other (message : String)
  | notFound (path : String)
  | unreadable (path : String) (reason : String)
  | notUtf8 (error : Text.Utf8.DecodeError)
  | empty
  | notYaml
  | duplicateKey (key : Value) (mark : Yaml.Mark)
  /-- The document is no mapping; its kind, unless there is no document. -/
  | notMapping (kind : Option String)
  | malformed (issues : List Validation.Issue)

inductive ConfigProblem where
  | other (message : String)
  | badFile (path : String) (reason : String)
  | malformed (issues : List Validation.Issue)

inductive TemplateProblem where
  | other (message : String)
  | notFound
  | undefined (variable_ : String)
  | noField (kind name : String)

inductive Failure where
  | general (message : String)
  | invalidUsage (message : String)
  | config (problem : ConfigProblem)
  | spec (problem : SpecProblem)
  | unresolvedType (token entity : String)
  | enumValue (parameter : String) (value : Value) (reason : String)
  | template (name : String) (problem : TemplateProblem) (path : Option String)
  | filesystem (path reason : String)
  | toolchain (command : List String) (output : String)
  | collision (path first second : String)

namespace Validation

def Step.text : Step → String
  | .name s => s
  | .index n => toString n

def Issue.text (i : Issue) : String :=
  ".".intercalate (i.path.map Step.text) ++ " (" ++ i.fault.code ++ ")"

def report (issues : List Issue) : String := ", ".intercalate (issues.map Issue.text)

end Validation

def SpecProblem.message : SpecProblem → String
  | .other message => message
  | .notFound path => s!"Spec file not found: {path}"
  | .unreadable path reason => s!"Failed to read spec file {path}: {reason}"
  | .notUtf8 error => s!"Spec is not valid UTF-8: {error.message}"
  | .empty => "Spec is empty"
  | .notYaml => "Invalid YAML"
  | .duplicateKey key mark =>
    s!"Invalid YAML: found duplicate key {key.shown} in line {mark.line + 1}, column {mark.column + 1}"
  | .notMapping none => "Spec must be a YAML mapping (got empty document)"
  | .notMapping (some kind) => s!"Spec must be a YAML mapping (got {kind})"
  | .malformed issues => s!"Malformed spec: {Validation.report issues}"

def ConfigProblem.message : ConfigProblem → String
  | .other message => message
  | .badFile path reason => s!"Invalid config at {path}: {reason}"
  | .malformed issues => s!"Invalid configuration: {Validation.report issues}"

def TemplateProblem.message : TemplateProblem → String
  | .other message => message
  | .notFound => "no such template"
  | .undefined variable_ => s!"'{variable_}' is undefined"
  | .noField kind name => s!"'{kind}' has no attribute '{name}'"

namespace Failure

def unlessEmpty (before text : String) : String := if text = "" then "" else before ++ text

def message : Failure → String
  | general message => message
  | invalidUsage message => message
  | config problem => problem.message
  | spec problem => problem.message
  | unresolvedType token entity => s!"Unknown type '{token}' declared by {entity}"
  | enumValue parameter value reason =>
    s!"Cannot serialise enum value {value.shown} of parameter '{parameter}'" ++ unlessEmpty ": " reason
  | template name problem path =>
    s!"Template '{name}' failed" ++ unlessEmpty " while rendering " (path.getD "") ++
      s!": {problem.message}"
  | filesystem path reason => s!"Cannot write {path}: {reason}"
  | toolchain command output =>
    "Command failed: " ++ " ".intercalate command ++ unlessEmpty "\n" (Text.trim output)
  | collision path first second => s!"{first} and {second} would both generate {path}"

def exitCode : Failure → Nat
  | general _ | config _ => 1
  | invalidUsage _ => 2
  | spec _ => 7
  | unresolvedType _ _ | enumValue _ _ _ => 8
  | template _ _ _ => 9
  | filesystem _ _ => 10
  | toolchain _ _ => 11
  | collision _ _ _ => 12

end Failure

inductive Abort where
  | failure (f : Failure)
  | defect (d : Defect)

def Abort.message : Abort → String
  | .failure f => f.message
  | .defect d => d.message

end PluginCompiler
