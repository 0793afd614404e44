import PluginCompiler.Environment
import PluginCompiler.Markup

/-! What is shown to the user: results on one channel, and messages about the work on another. With
colours on, messages and rich tables are marked-up text, which may turn out not to be fit to be shown. -/

set_option autoImplicit false

namespace PluginCompiler

inductive FormatChoice where
  | auto
  | json
  | plain
  | rich
  deriving DecidableEq, Repr, Inhabited

inductive Format where
  | json
  | plain
  | rich
  deriving DecidableEq, Repr, Inhabited

def Environment.refusesColor (e : Environment) : Bool :=
  (e.value? "NO_COLOR").isSome || e.value? "TERM" == some "dumb"

/-- Left to itself, output is rich on a terminal with colours and plain elsewhere. -/
def FormatChoice.settle (choice : FormatChoice) (noColor isTerminal : Bool) (e : Environment) :
    Format :=
  match choice with
  | .json => .json
  | .plain => .plain
  | .rich => .rich
  | .auto => if isTerminal && !(noColor || e.refusesColor) then .rich else .plain

inductive Message where
  | info (text : String)
  | success (text : String)
  | suggest (text : String)
  | error (text : String)
  | debug (text : String)
  | record (r : Record)
  deriving DecidableEq, Repr

structure Verbosity where
  quiet : Bool := false
  verbose : Bool := false
  deriving DecidableEq, Repr, Inhabited

def Level.isWarning : Level → Bool
  | .debug | .info => false
  | .warning | .error | .critical => true

namespace Message

/-- Errors are always shown, records without verbosity from warnings on. -/
def isShown (v : Verbosity) : Message → Bool
  | info _ | success _ | suggest _ => !v.quiet
  | error _ => true
  | debug _ => v.verbose
  | record r => v.verbose || r.level.isWarning

def line : Message → String
  | info text | success text => text
  | suggest text => "→ " ++ text
  | error text => "Error: " ++ text
  | debug text => "[debug] " ++ text
  | record r => s!"{r.level.word} {r.logger}: {r.text}"

def markup : Message → String
  | info text => text
  | success text => "[green]" ++ text ++ "[/green]"
  | suggest text => "[dim]→ " ++ text ++ "[/dim]"
  | error text => "[bold red]Error:[/bold red] " ++ text
  | debug text => "[dim]\\[debug] " ++ text ++ "[/dim]"
  | record r => r.text

end Message

structure Screen where
  verbosity : Verbosity := {}
  format : Format := .plain
  hasColor : Bool := false
  typesetter : Typesetter := .standard
  /-- The words for a failure. Where a library has refused a document, the library has a say in them. -/
  wording : Failure → String := Failure.message

namespace Screen

/-- The lines that a message puts on the screen. The texts of records are no markup. -/
def lines (s : Screen) (m : Message) : Except Defect (List String) :=
  if m.isShown s.verbosity then
    if s.hasColor then
      match m with
      | .record r => .ok (s.typesetter.record r)
      | m => (s.typesetter.text m.markup).mapError .markup
    else .ok [m.line]
  else .ok []

/-- The messages that are shown, up to the first that cannot be, and why it cannot. -/
def deliver (s : Screen) : List Message → List Message × Option Defect
  | [] => ([], none)
  | m :: rest =>
    match s.lines m with
    | .error defect => ([], some defect)
    | .ok _ =>
      let (shown, refused) := s.deliver rest
      (m :: shown, refused)

def shownLines (s : Screen) (ms : List Message) : List String :=
  ms.flatMap fun m => (s.lines m).toOption.getD []

def tableLines (s : Screen) (t : Table) : Except Defect (List String) :=
  match s.format with
  | .json => .ok [t.json]
  | .plain => .ok t.plainLines
  | .rich => (s.typesetter.table t).mapError .markup

end Screen

/-- The end of a run that wrote files; the kept ones are listed for those who want to know. -/
def Generate.Report.messages (r : Generate.Report) (pluginName : String) : List Message :=
  let name := if pluginName = "" then "plugin" else pluginName
  (r.kept.map fun path => .debug s!"Kept existing {path}") ++
    [.success s!"Generated {name} in {r.root} ({r.written.length} written, {r.kept.length} kept)."]

end PluginCompiler
