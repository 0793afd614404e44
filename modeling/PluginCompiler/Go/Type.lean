import PluginCompiler.Go.Text

/-! Type expressions of generated code, the tokens that specs write for them, and the packages that they
refer to. -/

set_option autoImplicit false

namespace PluginCompiler.Go

inductive Primitive where
  | string
  | bool
  | int
  | float64
  | time
  | bytes
  | object
  deriving DecidableEq, Repr

namespace Primitive

def expression : Primitive → String
  | string => "string"
  | bool => "bool"
  | int => "int"
  | float64 => "float64"
  | time => "time.Time"
  | bytes => "[]byte"
  | object => "map[string]interface\x7b\x7d"

def token : Primitive → String
  | string => "string"
  | bool => "boolean"
  | int => "integer"
  | float64 => "float"
  | time => "date"
  | bytes => "bytes"
  | object => "object"

def all : List Primitive := [string, bool, int, float64, time, bytes, object]

def tokens : List (String × Primitive) :=
  [("string", string), ("boolean", bool), ("bool", bool), ("integer", int), ("int", int),
   ("float", float64), ("number", float64), ("date", time), ("bytes", bytes), ("object", object),
   ("password", string), ("file", bytes)]

def ofToken? (token : String) : Option Primitive := tokens.lookup token

def ofExpression? (expression : String) : Option Primitive :=
  all.find? fun p => p.expression == expression

end Primitive

inductive GoType where
  | primitive (p : Primitive)
  | custom (name : String)
  | list (item : GoType)
  deriving DecidableEq, Repr

namespace GoType

def typesPackage : String := "types"

/-- The expression of a type, with custom types qualified or, inside their package, bare. -/
def expression (isInternal : Bool) : GoType → String
  | primitive p => p.expression
  | custom name =>
    if isInternal then Naming.upperCamel name else typesPackage ++ "." ++ Naming.upperCamel name
  | list item => "[]" ++ item.expression isInternal

def nest : Nat → GoType → GoType
  | 0, t => t
  | n + 1, t => list (nest n t)

/-- Signs of lists at the start of a token and what is left. Blanks before and after a sign do not
count, and a sign with nothing after it is no sign. The end of the token is free of blanks. -/
def peel : List Char → Nat × List Char
  | c :: d :: rest =>
    if Text.isBlank c then peel (d :: rest)
    else if c = '[' ∧ d = ']' ∧ rest ≠ [] then
      let (n, base) := peel rest
      (n + 1, base)
    else (0, c :: d :: rest)
  | [c] => (0, if Text.isBlank c then [] else [c])
  | [] => (0, [])

/-- The type that a name stands for. Primitive types come before custom types of the same name, and a
sign of lists is no name. -/
def ofName? (known : List String) (name : String) : Option GoType :=
  match Primitive.ofToken? name with
  | some p => some (primitive p)
  | none => if name ≠ "[]" ∧ name ∈ known then some (custom name) else none

def ofToken (known : List String) (token : String) : Except String GoType :=
  let (depth, cs) := peel (Text.trimRight Text.isBlank token.toList)
  let name := String.ofList cs
  match ofName? known name with
  | some t => .ok (nest depth t)
  | none => .error name

/-- The token of a custom type with a given identifier, qualified or not. Of several names with one
identifier the last counts. -/
def customToken? (known : List String) (cs : List Char) : Option String :=
  let identifier := ((typesPackage ++ ".").toList.isPrefixOf? cs).getD cs
  known.reverse.find? fun name => Naming.camelChars name.toList == identifier

def tokenChars? (known : List String) : List Char → Option String
  | '[' :: ']' :: rest =>
    match Primitive.ofExpression? (String.ofList ('[' :: ']' :: rest)) with
    | some p => some p.token
    | none => (tokenChars? known rest).map ("[]" ++ ·)
  | cs =>
    match Primitive.ofExpression? (String.ofList cs) with
    | some p => some p.token
    | none => customToken? known cs

def token? (known : List String) (expression : String) : Option String :=
  tokenChars? known expression.toList

end GoType

def occursIn (part : List Char) : List Char → Bool
  | [] => part.isEmpty
  | c :: cs => part.isPrefixOf (c :: cs) || occursIn part cs

def mentions (part expression : String) : Bool := occursIn part.toList expression.toList

def typesPath (packageRoot : String) : String := packageRoot ++ "/" ++ GoType.typesPackage

/-- The packages of a list of expressions in order, each once. Inside the package of custom types
these need no import. -/
def typeImports (isInternal : Bool) (packageRoot : String) (expressions : List String) :
    List String :=
  let time := if expressions.any (mentions "time.Time") then ["time"] else []
  let types :=
    if !isInternal && expressions.any (mentions (GoType.typesPackage ++ ".")) then
      [typesPath packageRoot]
    else []
  if typesPath packageRoot < "time" then types ++ time else time ++ types

end PluginCompiler.Go
