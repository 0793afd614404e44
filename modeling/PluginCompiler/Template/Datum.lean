import PluginCompiler.Go.Text
import PluginCompiler.Go.Type
import PluginCompiler.Spec.Basic

/-! What templates compute with: plain data, lists, and the records of a spec, which are read by the
names of their members. -/

set_option autoImplicit false

namespace PluginCompiler

namespace Template

inductive Fault where
  | undefined (variable_ : String)
  | noField (kind name : String)
  | unfit
  | digits (fault : Text.DigitFault)
  deriving DecidableEq, Repr

inductive Datum where
  | value (v : Value)
  | list (items : List Datum)
  | members (entries : List (String × Datum))
  | spec (s : Spec)
  | http (h : HttpSettings)
  | handler (h : Handler)
  | type (t : CustomType)
  | parameter (p : Parameter)
  | literal (l : EnumLiteral)
  | loop (isFirst : Bool)

namespace Datum

def text (s : String) : Datum := value (.text s)

def truth (b : Bool) : Datum := value (.bool b)

def number (n : Int) : Datum := value (.int n)

def optional : Option String → Datum
  | some s => text s
  | none => value .null

def ofSection {α : Type} (wrap : α → Datum) (s : Section α) : Datum :=
  members (s.entries.map fun e => (e.1, wrap e.2))

def kind : Datum → String
  | value v => v.kindName ++ " object"
  | list _ => "list object"
  | members _ => "dict object"
  | spec _ => "plugspec.models.Specification object"
  | http _ => "plugspec.models.HTTPSettings object"
  | handler _ => "plugspec.models.Handler object"
  | type _ => "plugspec.models.CustomType object"
  | parameter _ => "plugspec.models.Parameter object"
  | literal _ => "plugspec.models.EnumLiteral object"
  | loop _ => "jinja2.runtime.LoopContext object"

def fields : Datum → List (String × Datum)
  | spec s =>
    [("name", text s.name), ("package_root", text s.packageRoot), ("version", optional s.version),
     ("vendor", optional s.vendor), ("http", http s.http),
     ("connection", ofSection parameter s.connection), ("actions", ofSection handler s.actions),
     ("triggers", ofSection handler s.triggers), ("connection_data_key", text s.connectionKey),
     ("custom_types", ofSection type s.customTypes),
     ("raw_types", ofSection (ofSection parameter) s.rawTypes),
     ("plugin_spec_version", optional s.specVersion), ("title", optional s.title),
     ("description", optional s.description), ("tags", list (s.tags.map text)),
     ("icon", optional s.icon), ("help", optional s.help), ("spec_location", text s.location)]
  | http h =>
    [("port", number h.port), ("read_timeout", number h.readTimeout),
     ("write_timeout", number h.writeTimeout)]
  | handler h =>
    [("raw_name", text h.rawName), ("name", text h.name), ("title", optional h.title),
     ("description", optional h.description), ("input", ofSection parameter h.input),
     ("output", ofSection parameter h.output), ("package_root", text h.packageRoot)]
  | type t =>
    [("raw_name", text t.rawName), ("name", text t.name), ("fields", ofSection parameter t.fields),
     ("sorted_fields", list (t.sortedFields.map parameter))]
  | parameter p =>
    [("raw_name", text p.rawName), ("name", text p.name), ("type", text p.type),
     ("internal_type", text p.internalType), ("title", optional p.title),
     ("required", truth p.required), ("description", optional p.description),
     ("enum", list (p.enum.map value)), ("default", value p.default), ("embed", truth p.embed),
     ("nullable", truth p.nullable), ("enum_literals", list (p.enumLiterals.map literal))]
  | literal l => [("name", text l.name), ("literal_value", text l.literal)]
  | loop isFirst => [("first", truth isFirst)]
  | _ => []

def field (d : Datum) (name : String) : Except Fault Datum :=
  match d.fields.lookup name with
  | some a => .ok a
  | none => .error (.noField d.kind name)

/-- Emptiness, absence and zero count as false. -/
def isTrue : Datum → Bool
  | value v => v.isTruthy
  | list items => !items.isEmpty
  | members entries => !entries.isEmpty
  | _ => true

def written : Datum → Except Fault String
  | value v => if v.isWritable then .ok v.plain else .error (.digits .writing)
  | _ => .error .unfit

/-- What a loop goes through: of members the names. -/
def items : Datum → Except Fault (List Datum)
  | list ds => .ok ds
  | members entries => .ok (entries.map fun e => text e.1)
  | _ => .error .unfit

def values : Datum → Except Fault Datum
  | members entries => .ok (list (entries.map (·.2)))
  | _ => .error .unfit

def textOf : Datum → Except Fault String
  | value (.text s) => .ok s
  | _ => .error .unfit

def isText (s : String) : Datum → Bool
  | value (.text t) => t == s
  | _ => false

def textUnder (name : String) (d : Datum) : Except Fault String :=
  match d.fields.lookup name with
  | some a => a.textOf
  | none => .error .unfit

end Datum

end Template

end PluginCompiler
