import PluginCompiler.FileTree
import PluginCompiler.Template
import PluginCompiler.Text.LowerCase

/-! The files that a spec generates, in the order in which they are written. No two of them may have
the same path, case ignored. -/

set_option autoImplicit false

namespace PluginCompiler

/-- Whether a file follows the spec or belongs to the developer once it exists. -/
inductive WritePolicy where
  | always
  | once
  deriving DecidableEq, Repr

def WritePolicy.word : WritePolicy → String
  | .always => "always"
  | .once => "once"

inductive Body where
  | template (t : Template) (context : Context)
  | verbatim (content : List UInt8)

/-- A file to be generated. `owner` names the declaration that it comes from. -/
structure Output where
  path : Path
  policy : WritePolicy
  body : Body
  owner : String

namespace Output

def key (o : Output) : String := Text.lower o.path.toString

def render (o : Output) (target : Path) : Except Abort (List UInt8) :=
  match o.body with
  | .template t context => (t.render context (some target.toString)).map Text.Utf8.encode
  | .verbatim content => .ok content

def willWrite (o : Output) (root : Path) (cwd : Place) (t : FileTree) : Except Defect Bool :=
  match o.policy with
  | .always => .ok true
  | .once => ((root.join o.path).exists? cwd t).map (!·)

end Output

namespace Plan

def inDirectory (directory : List String) (name : String) : Path :=
  (⟨.relative, directory⟩ : Path).child name

def handlerOutputs (kind : HandlerKind) (handlers : Section Handler) : List Output :=
  handlers.entries.flatMap fun (name, h) =>
    let context : Context := { handler := some h }
    let owner := kind.word ++ " '" ++ name ++ "'"
    [⟨inDirectory [kind.package] (name ++ ".go"), .always, .template (.handler kind) context, owner⟩,
     ⟨inDirectory [kind.package] (name ++ "_run.go"), .once, .template (.stub kind) context,
      "the run stub of " ++ owner⟩]

def connectionOutputs (spec : Spec) : List Output :=
  let context : Context := { spec := some spec }
  [⟨inDirectory ["connection"] "connection.go", .always, .template .connection context,
    "the connection"⟩,
   ⟨inDirectory ["connection"] "connect.go", .once, .template .connect context, "the connect stub"⟩,
   ⟨inDirectory ["connection"] "cache.go", .once, .template .cache context,
    "the connection cache stub"⟩]

def programOutputs (spec : Spec) : List Output :=
  let context : Context := { spec := some spec }
  [⟨inDirectory ["cmd"] "main.go", .always, .template .program context, "the command entry point"⟩,
   ⟨inDirectory ["server", "http"] "server.go", .always, .template .server context,
    "the HTTP server"⟩]

def routeOutputs (spec : Spec) : List Output :=
  spec.actions.entries.map fun (name, h) =>
    ⟨inDirectory ["server", "http"] (name ++ ".go"), .always,
      .template .route { handler := some h, spec := some spec },
      "the HTTP handler of action '" ++ name ++ "'"⟩

def typeOutputs (spec : Spec) : List Output :=
  spec.customTypes.entries.map fun (name, t) =>
    ⟨inDirectory ["types"] (name ++ ".go"), .always,
      .template .customType { type := some t, spec := some spec }, "type '" ++ name ++ "'"⟩

def specCopy : String := "plugin.spec.yaml"

def vendorDirectory : String := "vendor"

def wholePlugin : String := "the plugin"

def buildOutputs (spec : Spec) (source : List UInt8) : List Output :=
  let context : Context := { spec := some spec }
  [⟨inDirectory [] "Dockerfile", .always, .template .image context, wholePlugin⟩,
   ⟨inDirectory [] "Makefile", .always, .template .makefile context, wholePlugin⟩,
   ⟨inDirectory [vendorDirectory] ".gitkeep", .always, .verbatim [], wholePlugin⟩,
   ⟨inDirectory [] specCopy, .always, .verbatim source, wholePlugin⟩]

def outputs (spec : Spec) (source : List UInt8) : List Output :=
  handlerOutputs .action spec.actions ++ connectionOutputs spec ++
    handlerOutputs .trigger spec.triggers ++ programOutputs spec ++ routeOutputs spec ++
    typeOutputs spec ++ buildOutputs spec source

def collisionFrom : List Output → List Output → Option (Output × Output)
  | _, [] => none
  | seen, o :: rest =>
    match seen.find? fun p => p.key == o.key with
    | some earlier => some (earlier, o)
    | none => collisionFrom (seen ++ [o]) rest

def collision? (os : List Output) : Option (Output × Output) := collisionFrom [] os

end Plan

def Spec.plan (spec : Spec) (source : List UInt8) : Except Failure (List Output) :=
  let os := Plan.outputs spec source
  match Plan.collision? os with
  | some (earlier, o) => .error (.collision o.path.toString earlier.owner o.owner)
  | none => .ok os

def Spec.rootName (spec : Spec) : String :=
  String.ofList (Text.trimBy (· == '/') spec.packageRoot.toList)

def Spec.outputRoot (spec : Spec) (workspace : Path) : Except Failure Path :=
  if spec.rootName = "" then
    .error (.invalidUsage "A package root is required to generate a plugin")
  else .ok (workspace.child spec.rootName)

end PluginCompiler
