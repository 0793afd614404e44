import PluginCompiler.Go.Type
import PluginCompiler.Template.Datum

/-! The bodies of templates: texts, expressions that are written out, loops and conditions over the
variables of a scope. A name that stands for nothing is a fault as soon as it is read. -/

set_option autoImplicit false

namespace PluginCompiler

namespace Template

abbrev Scope := List (String × Datum)

inductive Filter where
  /-- Text on one line, the empty one in place of nothing. -/
  | comment
  | quote
  | constant
  | list
  | having (field : String)
  | equal (field text : String)
  deriving DecidableEq, Repr

inductive Macro where
  | structFields
  | enumConstants
  | hasEnums
  | importBlock
  deriving DecidableEq, Repr

inductive Expr where
  | var (x : String)
  | quoted (s : String)
  | field (e : Expr) (name : String)
  | values (e : Expr)
  | filter (f : Filter) (e : Expr)
  | or (a b : Expr)
  | not (e : Expr)
  | plus (a b : Expr)
  | joined (a b : Expr)
  | single (e : Expr)
  | imports (isInternal : Bool) (parameters root : Expr)
  | call (m : Macro) (argument : Expr)
  | callWith (m : Macro) (first second : Expr)
  deriving DecidableEq, Repr

inductive Body where
  | done
  | text (s : String) (rest : Body)
  | out (e : Expr) (rest : Body)
  | bind (x : String) (e : Expr) (rest : Body)
  /-- A loop through the items of which `keep` is true, if it is there. -/
  | each (x : String) (items : Expr) (keep : Option Expr) (body rest : Body)
  | cond (test : Expr) (yes no rest : Body)
  deriving Repr

def Filter.apply : Filter → Datum → Except Fault Datum
  | comment, .value v =>
    match v with
    | .text s => .ok (.text (Go.comment s))
    | v => if v.isTruthy then .error .unfit else .ok (.text (Go.comment ""))
  | comment, _ => .error .unfit
  | quote, .value v =>
    match Go.quoteValue v with
    | .ok s => .ok (.text s)
    | .error fault => .error (.digits fault)
  | quote, _ => .error .unfit
  | constant, d => do return .text (Go.constant (← d.textOf))
  | list, d => do return .list (← d.items)
  | having field, d => do
    return .list (← (← d.items).filterM fun i => do return (← i.field field).isTrue)
  | equal field text, d => do
    return .list (← (← d.items).filterM fun i => do return (← i.field field).isText text)

abbrev Calls := Macro → List Datum → Except Fault String

def Expr.eval (calls : Calls) (scope : Scope) : Expr → Except Fault Datum
  | var x =>
    match scope.lookup x with
    | some d => .ok d
    | none => .error (.undefined x)
  | quoted s => .ok (.text s)
  | field e name => do (← e.eval calls scope).field name
  | values e => do (← e.eval calls scope).values
  | filter f e => do f.apply (← e.eval calls scope)
  | or a b => do
    let d ← a.eval calls scope
    if d.isTrue then return d else b.eval calls scope
  | not e => do return .truth !(← e.eval calls scope).isTrue
  | plus a b => do
    match ← a.eval calls scope, ← b.eval calls scope with
    | .list ds, .list es => return .list (ds ++ es)
    | _, _ => throw .unfit
  | joined a b => do
    let first ← a.eval calls scope
    let second ← b.eval calls scope
    return .text ((← first.written) ++ (← second.written))
  | single e => do return .list [← e.eval calls scope]
  | imports isInternal parameters root => do
    let ds ← (← parameters.eval calls scope).items
    let root ← (← root.eval calls scope).textOf
    let types ← ds.mapM (Datum.textUnder (if isInternal then "internal_type" else "type"))
    return .list ((Go.typeImports isInternal root types).map .text)
  | call m argument => do return .text (← calls m [← argument.eval calls scope])
  | callWith m first second => do
    return .text (← calls m [← first.eval calls scope, ← second.eval calls scope])

def eachText (keep : Datum → Except Fault Bool) (render : Bool → Datum → Except Fault String) :
    Bool → List Datum → Except Fault String
  | _, [] => .ok ""
  | isFirst, d :: ds => do
    if ← keep d then
      let s ← render isFirst d
      return s ++ (← eachText keep render false ds)
    else eachText keep render isFirst ds

def Body.render (calls : Calls) : Scope → Body → Except Fault String
  | _, done => .ok ""
  | scope, text s rest => do return s ++ (← rest.render calls scope)
  | scope, out e rest => do
    let s ← (← e.eval calls scope).written
    return s ++ (← rest.render calls scope)
  | scope, bind x e rest => do
    rest.render calls ((x, ← e.eval calls scope) :: scope)
  | scope, each x items keep body rest => do
    let ds ← (← items.eval calls scope).items
    let kept (d : Datum) : Except Fault Bool :=
      match keep with
      | none => .ok true
      | some e => (e.eval calls ((x, d) :: scope)).map Datum.isTrue
    let s ← eachText kept
      (fun isFirst d => body.render calls (("loop", .loop isFirst) :: (x, d) :: scope)) true ds
    return s ++ (← rest.render calls scope)
  | scope, cond test yes no rest => do
    let s ← if (← test.eval calls scope).isTrue then yes.render calls scope else no.render calls scope
    return s ++ (← rest.render calls scope)

end Template

end PluginCompiler
