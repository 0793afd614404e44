import PluginCompiler.Section
import PluginCompiler.Value.Basic

/-! Plugin specs. Some fields are written in the document and others are derived from them before
anything is generated; both kinds live in the same records. -/

set_option autoImplicit false

namespace PluginCompiler

structure EnumLiteral where
  name : String
  literal : String
  deriving DecidableEq, Repr

/-- A field of an input, an output, the connection or a custom type. `type` holds the token of the
document until it is resolved to a type expression; `internalType` is that expression as seen from
the package of the custom types. -/
structure Parameter where
  rawName : String := ""
  name : String := ""
  type : String := ""
  internalType : String := ""
  title : Option String := none
  required : Bool := false
  description : Option String := none
  enum : List Value := []
  default : Value := .null
  embed : Bool := false
  nullable : Bool := false
  enumLiterals : List EnumLiteral := []
  deriving Inhabited

/-- A named record type. `sortedFields` is the order in which its fields are written. -/
structure CustomType where
  rawName : String
  name : String
  fields : Section Parameter := .empty
  sortedFields : List Parameter := []
  deriving Inhabited

structure Handler where
  rawName : String := ""
  name : String := ""
  title : Option String := none
  description : Option String := none
  input : Section Parameter := .empty
  output : Section Parameter := .empty
  packageRoot : String := ""
  deriving Inhabited

inductive HandlerKind where
  | action
  | trigger
  deriving DecidableEq, Repr

namespace HandlerKind

def word : HandlerKind → String
  | action => "action"
  | trigger => "trigger"

def package : HandlerKind → String
  | action => "actions"
  | trigger => "triggers"

def outputSuffix : HandlerKind → String
  | action => "Output"
  | trigger => "Event"

def typeSuffix : HandlerKind → String
  | action => "Action"
  | trigger => "Trigger"

def receiver : HandlerKind → String
  | action => "a"
  | trigger => "t"

end HandlerKind

/-- Settings of the generated server, in seconds; zero asks for the default. -/
structure HttpSettings where
  port : Int := 0
  readTimeout : Int := 0
  writeTimeout : Int := 0
  deriving DecidableEq, Repr, Inhabited

structure Spec where
  specVersion : Option String := none
  name : String := ""
  title : Option String := none
  description : Option String := none
  version : Option String := none
  vendor : Option String := none
  tags : List String := []
  icon : Option String := none
  help : Option String := none
  connection : Section Parameter := .empty
  rawTypes : Section (Section Parameter) := .empty
  actions : Section Handler := .empty
  triggers : Section Handler := .empty
  http : HttpSettings := {}
  packageRoot : String := ""
  location : String := ""
  customTypes : Section CustomType := .empty
  connectionKey : String := ""
  deriving Inhabited

end PluginCompiler
