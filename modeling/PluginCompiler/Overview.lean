import PluginCompiler.Plan
import PluginCompiler.Table

/-! Tables that show what a spec declares and which files it generates. -/

set_option autoImplicit false

namespace PluginCompiler

namespace Overview

def absent : String := "-"

def orAbsent (s : String) : String := if s = "" then absent else s

def yesIf (b : Bool) : String := if b then "yes" else ""

end Overview

open Overview

def Spec.summaryRows (s : Spec) : List (List String) :=
  [["Name", orAbsent s.name],
   ["Title", orAbsent (s.title.getD "")],
   ["Version", orAbsent (s.version.getD "")],
   ["Vendor", orAbsent (s.vendor.getD "")],
   ["Spec version", orAbsent (s.specVersion.getD "")],
   ["Tags", orAbsent (", ".intercalate s.tags)],
   ["Types", toString s.customTypes.entries.length],
   ["Connection parameters", toString s.connection.entries.length],
   ["Actions", toString s.actions.entries.length],
   ["Triggers", toString s.triggers.entries.length],
   ["HTTP port", toString s.http.port],
   ["HTTP timeouts (read/write)", s!"{s.http.readTimeout}s / {s.http.writeTimeout}s"]] ++
    (match s.description with
      | some text => if text = "" then [] else [["Description", text]]
      | none => [])

def HttpSettings.isWritable (h : HttpSettings) : Bool :=
  [h.port, h.readTimeout, h.writeTimeout].all Text.isWritable

/-- The settings of the server must have texts. -/
def Spec.summaryTable (s : Spec) : Except Defect Table :=
  if s.http.isWritable then .ok ⟨["Field", "Value"], s.summaryRows, some "Plugin Summary"⟩
  else .error (.digits .writing)

/-- Fields in the order in which they are generated; a type without fields has a row of its own. -/
def CustomType.rows (t : CustomType) : List (List String) :=
  if t.sortedFields.isEmpty then [[t.name, absent, absent, absent, "", ""]]
  else t.sortedFields.map fun p =>
    [t.name, p.rawName, p.name, p.internalType, yesIf p.embed, yesIf p.nullable]

def Spec.typesTable (s : Spec) : Table :=
  ⟨["Type", "Field", "Identifier", "Go type", "Embedded", "Nullable"],
    s.customTypes.entries.flatMap fun (_, t) => t.rows,
    some s!"{s.name} -- Types ({s.customTypes.entries.length})"⟩

def parameterHeaders : List String :=
  ["Section", "Parameter", "Identifier", "Go type", "Required", "Enum"]

def Parameter.row (section_ : String) (p : Parameter) : List String :=
  [section_, p.rawName, p.name, p.type, yesIf p.required,
   ", ".intercalate (p.enumLiterals.map (·.literal))]

def sectionRows (section_ : String) (ps : Section Parameter) : List (List String) :=
  ps.entries.map fun (_, p) => p.row section_

/-- The parameters of a handler; one without any has a row of its own. -/
def Handler.rows (h : Handler) : List (List String) :=
  let rows := sectionRows "input" h.input ++ sectionRows "output" h.output
  if rows.isEmpty then [[h.name, absent, absent, absent, absent, "", ""]]
  else rows.map (h.name :: ·)

def HandlerKind.heading : HandlerKind → String
  | .action => "Action"
  | .trigger => "Trigger"

def HandlerKind.handlers (kind : HandlerKind) (s : Spec) : Section Handler :=
  match kind with
  | .action => s.actions
  | .trigger => s.triggers

def Spec.handlersTable (s : Spec) (kind : HandlerKind) : Table :=
  ⟨kind.heading :: parameterHeaders, (kind.handlers s).entries.flatMap fun (_, h) => h.rows,
    some s!"{s.name} -- {kind.heading}s ({(kind.handlers s).entries.length})"⟩

def Spec.connectionTable (s : Spec) : Table :=
  ⟨parameterHeaders, sectionRows "connection" s.connection, some s!"{s.name} -- Connection"⟩

def Output.row (o : Output) (root : Path) (cwd : Place) (t : FileTree) :
    Except Defect (List String) :=
  (o.willWrite root cwd t).map fun written =>
    [o.path.toString, o.policy.word, if written then "write" else "keep"]

def Plan.rows (root : Path) (cwd : Place) (t : FileTree) :
    List Output → Except Defect (List (List String))
  | [] => .ok []
  | o :: rest =>
    match o.row root cwd t with
    | .error defect => .error defect
    | .ok row => (Plan.rows root cwd t rest).map (row :: ·)

def Plan.table (root : Path) (os : List Output) (cwd : Place) (t : FileTree) : Except Defect Table :=
  (Plan.rows root cwd t os).map fun rows =>
    ⟨["Path", "Policy", "Action"], rows, some s!"{root} ({rows.length} files)"⟩

end PluginCompiler
