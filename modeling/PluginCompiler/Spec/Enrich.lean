import PluginCompiler.Failure
import PluginCompiler.Go.Type
import PluginCompiler.Spec.Basic

/-! Filling in what the document leaves out: identifiers, type expressions, constants, the key of
cached connections and the settings of the server. Sections come out in the order of their names, so
that their order in the document does not show; the fields of a custom type stay as declared. -/

set_option autoImplicit false

namespace PluginCompiler

inductive EnumProblem where
  | noText (fault : Json.Fault)
  | taken (name earlier : String)
  deriving DecidableEq, Repr

def EnumProblem.message : EnumProblem → String
  | .noText fault => fault.message
  | .taken name earlier => s!"constant {name} is already used by {earlier}"

def EnumLiteral.ofValue (identifier : String) (v : Value) : Except Json.Fault EnumLiteral :=
  (Json.compact v).map fun text => ⟨identifier ++ Naming.constantSuffix text, text⟩

/-- Constants for values after those that have theirs already; the first value that has none is the
result otherwise. -/
def literalsFrom (identifier : String) :
    List EnumLiteral → List Value → Except (Value × EnumProblem) (List EnumLiteral)
  | _, [] => .ok []
  | taken, v :: rest =>
    match EnumLiteral.ofValue identifier v with
    | .error fault => .error (v, .noText fault)
    | .ok literal =>
      match taken.find? fun t => t.name == literal.name with
      | some earlier => .error (v, .taken literal.name earlier.literal)
      | none => (literalsFrom identifier (taken ++ [literal]) rest).map (literal :: ·)

def literalsOf (identifier : String) (values : List Value) :
    Except (Value × EnumProblem) (List EnumLiteral) :=
  literalsFrom identifier [] values

def entityOf (owner name : String) : String := owner ++ "." ++ name

def resolveType (known : List String) (entity : String) (isInternal : Bool) (token : String) :
    Except Failure String :=
  match Go.GoType.ofToken known token with
  | .error unknown => .error (.unresolvedType unknown entity)
  | .ok type => .ok (type.expression isInternal)

/-- The constants for the allowed values of a parameter, or the failure that tells which value has none
and where. A value without a text cannot be told. -/
def allowedLiterals (identifier entity : String) (values : List Value) :
    Except Abort (List EnumLiteral) :=
  match literalsOf identifier values with
  | .error (value, problem) =>
    if value.isWritable then .error (.failure (.enumValue entity value problem.message))
    else .error (.defect (.digits .writing))
  | .ok literals => .ok literals

/-- A parameter with everything that derives from it and from its name. The type comes before the
allowed values. -/
def Parameter.enrich (known : List String) (owner name : String) (p : Parameter) :
    Except Abort Parameter :=
  let entity := entityOf owner name
  let identifier := Naming.upperCamel name
  match resolveType known entity false p.type with
  | .error failure => .error (.failure failure)
  | .ok type =>
    match resolveType known entity true p.type with
    | .error failure => .error (.failure failure)
    | .ok internalType =>
      match allowedLiterals identifier entity p.enum with
      | .error abort => .error abort
      | .ok literals =>
        .ok { p with
          rawName := name
          name := identifier
          type := type
          internalType := internalType
          enumLiterals := literals }

def enrichSection (known : List String) (owner : String) (s : Section Parameter) :
    Except Abort (Section Parameter) :=
  s.traverse fun name p => p.enrich known owner name

/-- Embedded fields come first; otherwise the order stays. -/
def sortFields (fields : List Parameter) : List Parameter :=
  fields.filter (·.embed) ++ fields.filter (!·.embed)

def enrichType (known : List String) (name : String) (fields : Section Parameter) :
    Except Abort (Section Parameter) :=
  enrichSection known ("type " ++ name) fields

def CustomType.ofFields (name : String) (fields : Section Parameter) : CustomType :=
  ⟨name, Naming.upperCamel name, fields, sortFields fields.values⟩

def Handler.enrich (known : List String) (kind packageRoot name : String) (h : Handler) :
    Except Abort Handler :=
  let owner := kind ++ " " ++ name
  match enrichSection known (owner ++ " input") h.input.sorted with
  | .error abort => .error abort
  | .ok input =>
    match enrichSection known (owner ++ " output") h.output.sorted with
    | .error abort => .error abort
    | .ok output =>
      .ok { h with
        rawName := name
        name := Naming.upperCamel name
        packageRoot := packageRoot
        input := input
        output := output }

/-- The part of a parameter in the key. A nullable one goes through a helper that maps an absent text
to an empty one. -/
def Parameter.keyOperand (p : Parameter) : String :=
  if p.nullable then "stringValue(c." ++ p.name ++ ")" else "c." ++ p.name

def keyParameters (params : List Parameter) : List Parameter :=
  params.filter fun p => p.type == Go.Primitive.string.expression

def keyExpression (params : List Parameter) : String :=
  match (keyParameters params).map Parameter.keyOperand with
  | [] => "\"\""
  | operands => " + ".intercalate operands

def defaultPort : Int := 10001

def defaultTimeout : Int := 2

def orDefault (default_ n : Int) : Int := if n = 0 then default_ else n

def HttpSettings.withDefaults (h : HttpSettings) : HttpSettings :=
  ⟨orDefault defaultPort h.port, orDefault defaultTimeout h.readTimeout,
    orDefault defaultTimeout h.writeTimeout⟩

/-- What fails first in this order is the result: custom types, connection, actions, triggers. -/
def Spec.enrich (spec : Spec) : Except Abort Spec :=
  let known := spec.rawTypes.names
  match spec.rawTypes.sorted.traverse (enrichType known) with
  | .error abort => .error abort
  | .ok types =>
    match enrichSection known "connection" spec.connection.sorted with
    | .error abort => .error abort
    | .ok connection =>
      match spec.actions.sorted.traverse (Handler.enrich known "action" spec.packageRoot) with
      | .error abort => .error abort
      | .ok actions =>
        match spec.triggers.sorted.traverse (Handler.enrich known "trigger" spec.packageRoot) with
        | .error abort => .error abort
        | .ok triggers =>
          .ok { spec with
            rawTypes := types
            customTypes := types.mapEntries CustomType.ofFields
            connection := connection
            connectionKey := keyExpression connection.values
            actions := actions
            triggers := triggers
            http := spec.http.withDefaults }

end PluginCompiler
