import PluginCompiler.Spec.Basic
import PluginCompiler.Validation

/-! The shape of a plugin spec as data. Fields are checked in the order in which they are listed
here. -/

set_option autoImplicit false

namespace PluginCompiler

open Value

/-- Numbers are taken for texts where a version or a name is expected. -/
def numberAsText (check : Value → Checked String) (v : Value) : Checked String :=
  match v with
  | int n => if Text.isWritable n then check (text (toString n)) else .fault .value
  | float x => check (text (Decimal.floatText x))
  | v => check v

def optionalText : Value → Checked (Option String) := asOptional asText

def optionalLabel : Value → Checked (Option String) := asOptional (numberAsText asText)

def EnumLiteral.decode : Value → Checked EnumLiteral :=
  asRecord fun e =>
    EnumLiteral.mk <$> requiredField e "name" asText <*> requiredField e "literal_value" asText

def Parameter.decode : Value → Checked Parameter :=
  asRecord fun e =>
    Parameter.mk
      <$> field e "raw_name" "" asText
      <*> field e "name" "" asText
      <*> field e "type" "" (orIfNull (text "") asText)
      <*> field e "internal_type" "" asText
      <*> field e "title" none optionalText
      <*> field e "required" false asBool
      <*> field e "description" none optionalText
      <*> field e "enum" [] (orIfNull (list []) (asList asAny))
      <*> field e "default" null asAny
      <*> field e "embed" false asBool
      <*> field e "nullable" false asBool
      <*> field e "enum_literals" [] (asList EnumLiteral.decode)

def decodeParameters : Value → Checked (Section Parameter) := asSection Parameter.decode

def CustomType.decode : Value → Checked CustomType :=
  asRecord fun e =>
    CustomType.mk
      <$> requiredField e "raw_name" asText
      <*> requiredField e "name" asText
      <*> field e "fields" .empty decodeParameters
      <*> field e "sorted_fields" [] (asList Parameter.decode)

def Handler.decode : Value → Checked Handler :=
  asRecord fun e =>
    Handler.mk
      <$> field e "raw_name" "" asText
      <*> field e "name" "" asText
      <*> field e "title" none optionalText
      <*> field e "description" none optionalText
      <*> field e "input" .empty (orIfNull (map []) decodeParameters)
      <*> field e "output" .empty (orIfNull (map []) decodeParameters)
      <*> field e "package_root" "" asText

def HttpSettings.decode : Value → Checked HttpSettings :=
  asRecord fun e =>
    HttpSettings.mk
      <$> field e "port" 0 asInt
      <*> field e "read_timeout" 0 asInt
      <*> field e "write_timeout" 0 asInt

def decodeTypes : Value → Checked (Section (Section Parameter)) :=
  asSection (orIfNull (map []) decodeParameters)

/-- The section of custom types has two names, of which the first counts. -/
def typesField (entries : List (Value × Value)) : Checked (Section (Section Parameter)) :=
  match find? "types" entries with
  | some v => (orIfNull (map []) decodeTypes v).under (.name "types")
  | none => field entries "raw_types" .empty (orIfNull (map []) decodeTypes)

def Spec.decode : Value → Checked Spec :=
  asRecord fun e =>
    Spec.mk
      <$> field e "plugin_spec_version" none optionalLabel
      <*> field e "name" "" (numberAsText asText)
      <*> field e "title" none optionalLabel
      <*> field e "description" none optionalText
      <*> field e "version" none optionalLabel
      <*> field e "vendor" none optionalLabel
      <*> field e "tags" [] (orIfNull (list []) (asList asText))
      <*> field e "icon" none optionalText
      <*> field e "help" none optionalText
      <*> field e "connection" .empty (orIfNull (map []) decodeParameters)
      <*> typesField e
      <*> field e "actions" .empty (orIfNull (map []) (asSection Handler.decode))
      <*> field e "triggers" .empty (orIfNull (map []) (asSection Handler.decode))
      <*> field e "http" {} (orIfNull (map []) HttpSettings.decode)
      <*> field e "package_root" "" asText
      <*> field e "spec_location" "" asText
      <*> field e "custom_types" .empty (asSection CustomType.decode)
      <*> field e "connection_data_key" "" asText

end PluginCompiler
