import PluginCompiler.Failure
import PluginCompiler.Path
import PluginCompiler.Template.Bundled

/-! The templates of generated files by name, and what they are filled in with. -/

set_option autoImplicit false

namespace PluginCompiler

inductive Template where
  | handler (kind : HandlerKind)
  | stub (kind : HandlerKind)
  | connection
  | connect
  | cache
  | program
  | server
  | route
  | customType
  | image
  | makefile
  /-- Declarations that other templates share; it gives nothing but its blank lines. -/
  | shared
  deriving DecidableEq, Repr

structure Context where
  spec : Option Spec := none
  handler : Option Handler := none
  type : Option CustomType := none

def Context.scope (c : Context) : Template.Scope :=
  c.spec.toList.map (fun s => ("spec", .spec s)) ++
    c.handler.toList.map (fun h => ("handler", .handler h)) ++
    c.type.toList.map (fun t => ("type", .type t))

namespace Template

def name : Template → String
  | handler .action => "actions/action.go.j2"
  | handler .trigger => "triggers/trigger.go.j2"
  | stub .action => "actions/action_run.go.j2"
  | stub .trigger => "triggers/trigger_run.go.j2"
  | connection => "connection/connection.go.j2"
  | connect => "connection/connect.go.j2"
  | cache => "connection/cache.go.j2"
  | program => "cmd/main.go.j2"
  | server => "server/http/server.go.j2"
  | route => "server/http/handler.go.j2"
  | customType => "types/type.go.j2"
  | image => "Dockerfile.j2"
  | makefile => "Makefile.j2"
  | shared => "_macros.j2"

def all : List Template :=
  [handler .action, handler .trigger, stub .action, stub .trigger, connection, connect, cache,
   program, server, route, customType, image, makefile, shared]

/-- Empty segments and those that stay in place do not count; steps upwards lead nowhere. -/
def ofName? (given : String) : Option Template :=
  let parts := Path.partsOf given.toList
  if parts.contains ".." then none else all.find? fun t => Path.partsOf t.name.toList == parts

def body : Template → Body
  | handler kind => handlerBody kind
  | stub kind => stubBody kind
  | connection => connectionBody
  | connect => connectBody
  | cache => cacheBody
  | program => programBody
  | server => serverBody
  | route => routeBody
  | customType => typeBody
  | image => imageBody
  | makefile => makefileBody
  | shared => fixed ["", "", ""] .done

/-- A fault of the template named `given`. Only names that stand for nothing are reported. -/
def Fault.abort (given : String) (path : Option String) : Fault → Abort
  | .undefined x => .failure (.template given (.undefined x) path)
  | .noField kind x => .failure (.template given (.noField kind x) path)
  | .unfit => .defect .unfitOperand
  | .digits fault => .defect (.digits fault)

def renderAs (t : Template) (given : String) (c : Context) (path : Option String) :
    Except Abort String :=
  (t.body.render Macro.call c.scope).mapError (Fault.abort given path)

def render (t : Template) (c : Context) (path : Option String) : Except Abort String :=
  t.renderAs t.name c path

def renderNamed (given : String) (c : Context) (path : Option String) : Except Abort String :=
  match ofName? given with
  | none => .error (.failure (.template given .notFound path))
  | some t => t.renderAs given c path

end Template

end PluginCompiler
