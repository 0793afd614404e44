import PluginCompiler.Json.Compact
import PluginCompiler.Text.Blank
import PluginCompiler.Value.Inspect

/-! Texts inside generated code: identifiers, string literals, constants and comments. -/

set_option autoImplicit false

namespace PluginCompiler

namespace Naming

def isWordChar (c : Char) : Bool := c.isAlphanum

/-- The words of a name joined; `atStart` tells whether the next character starts a word. -/
def camelFrom : Bool → List Char → List Char
  | _, [] => []
  | atStart, c :: cs =>
    if isWordChar c then (if atStart then c.toUpper else c) :: camelFrom false cs
    else camelFrom true cs

def camelChars (cs : List Char) : List Char := camelFrom true cs

/-- Only the first letter of each word is changed. -/
def upperCamel (name : String) : String := String.ofList (camelChars name.toList)

def constantSuffix (literal : String) : String :=
  let name := upperCamel literal
  if name = "" then "Empty" else name

end Naming

namespace Go

/-- An interpreted string literal. Characters outside ASCII stand for themselves, since generated
code is UTF-8. -/
def quote (s : String) : String := Json.quote s

def quoteOptional (s : Option String) : String := quote (s.getD "")

def quoteValue : Value → Except Text.DigitFault String
  | .null => .ok (quote "")
  | v => if v.isWritable then .ok (quote v.plain) else .error .writing

/-- Whether a JSON text is no constant of generated code: lists, objects and absence are not. -/
def isCompound (literal : String) : Bool :=
  literal == "null" || match literal.toList with
    | c :: _ => c == '[' || c == '\x7b'
    | [] => false

/-- A constant for a JSON text. What is no constant by itself is kept as a raw string, or quoted if
it holds the sign that ends a raw string. -/
def constant (literal : String) : String :=
  if isCompound literal then
    if literal.toList.contains '\x60' then quote literal else "\x60" ++ literal ++ "\x60"
  else literal

def comment (text : String) : String := " ".intercalate (Text.words text)

end Go

end PluginCompiler
