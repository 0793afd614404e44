import PluginCompiler.FileTree
import PluginCompiler.Spec.Decode
import PluginCompiler.Spec.Enrich

/-! Reading a spec from its text, and from a file. -/

set_option autoImplicit false

namespace PluginCompiler

namespace Spec

inductive Source where
  | text (s : String)
  | bytes (b : List UInt8)

def Source.toBytes : Source → List UInt8
  | .text s => Text.Utf8.encode s
  | .bytes b => b

def Source.toText : Source → Except SpecProblem String
  | .text s => .ok s
  | .bytes b => (Text.Utf8.decode b).mapError .notUtf8

def dropSlashes (s : String) : String := String.ofList (Text.trimRight (· == '/') s.toList)

/-- The package root in force: the one asked for, or else the one in the document. -/
def effectiveRoot (asked : String) (entries : List (Value × Value)) : String :=
  if asked ≠ "" then dropSlashes asked
  else match Value.find? "package_root" entries with
    | some v => if v.isTruthy then v.plain else ""
    | none => ""

/-- Whether the root in force has a text. The one in the document is written out only if none is asked
for. -/
def hasRoot (asked : String) (entries : List (Value × Value)) : Bool :=
  asked != "" || ((Value.find? "package_root" entries).all Value.isWritable)

def refuse {α : Type} (problem : SpecProblem) : Except Abort α :=
  .error (.failure (.spec problem))

/-- A spec from the data of its document. Package root and location are settled before the data is
checked. -/
def ofData (data : Value) (packageRoot location : String) : Except Abort Spec :=
  match data.opened with
  | .map entries =>
    if hasRoot packageRoot entries then
      let data := data.withEntry "package_root" (.text (effectiveRoot packageRoot entries))
      let data := data.withEntry "spec_location" (.text location)
      match Spec.decode data with
      | .valid spec => .ok spec
      | .invalid issues => refuse (.malformed issues)
    else .error (.defect (.digits .writing))
  | .null => refuse (.notMapping none)
  | v => refuse (.notMapping (some v.kindName))

def dataOf (s : String) : Except Abort Value :=
  if s.toList.all Text.isBlank then refuse .empty
  else match Yaml.load s.toList with
    | .ok data => .ok data
    | .error .malformed => refuse .notYaml
    | .error (.duplicateKey key mark) =>
      if key.isWritable then refuse (.duplicateKey key mark) else .error (.defect (.digits .writing))
    | .error (.noSuchCharacter number) => .error (.defect (.noSuchCharacter number))
    | .error (.value fault) => .error (.defect (.value fault))

def parse (source : Source) (packageRoot location : String) : Except Abort Spec :=
  match source.toText with
  | .error problem => refuse problem
  | .ok s =>
    match dataOf s with
    | .error abort => .error abort
    | .ok data => ofData data packageRoot location

def readFile (path : Path) (shown : String) (cwd : Place) (t : FileTree) :
    Except Abort (List UInt8) :=
  match path.file? cwd t with
  | .error defect => .error (.defect defect)
  | .ok none => refuse (.notFound shown)
  | .ok (some content) => .ok content

def load (path : Path) (shown packageRoot : String) (cwd : Place) (t : FileTree) :
    Except Abort (Spec × List UInt8) :=
  match readFile path shown cwd t with
  | .error abort => .error abort
  | .ok content =>
    match parse (.bytes content) packageRoot shown with
    | .error abort => .error abort
    | .ok spec => .ok (spec, content)

def loadEnriched (path : Path) (packageRoot : String) (cwd : Place) (t : FileTree) :
    Except Abort (Spec × List UInt8) :=
  match load path path.toString packageRoot cwd t with
  | .error abort => .error abort
  | .ok (spec, content) =>
    match spec.enrich with
    | .error abort => .error abort
    | .ok spec => .ok (spec, content)

end Spec

end PluginCompiler
