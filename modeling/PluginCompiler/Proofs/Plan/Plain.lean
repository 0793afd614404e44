import PluginCompiler.Proofs.Connection.Agreement
import PluginCompiler.Proofs.Emit.Flat
import PluginCompiler.Proofs.Plan.Collision
import PluginCompiler.Proofs.Plan.Files

/-! Specs whose copied texts have no breaks. Their files of generated code are read line by line as they
are written. -/

set_option autoImplicit false

namespace PluginCompiler

open Go (IsLine)
open Naming (IsWord)

variable {p : Parameter} {h : Handler} {spec : Spec}

/-- No text that is copied into generated code as it is has a break, and the numbers of the server can be
written. -/
structure Spec.Breakless (spec : Spec) : Prop where
  name : IsLine spec.name
  packageRoot : IsLine spec.packageRoot
  declared : ∀ key ∈ spec.declared, IsLine key
  parameters : ∀ p ∈ spec.parameters, IsLine p.rawName
  writable : spec.http.isWritable

/-- No name of a parameter has the sign that ends a raw string, either. -/
structure Spec.Plain (spec : Spec) : Prop extends Spec.Breakless spec where
  unended : ∀ p ∈ spec.parameters, '`' ∉ p.rawName.toList

/-- Whoever reads the file that is rendered line by line sees `ls`. -/
def Output.ReadsAs (o : Output) (ls : List String) : Prop :=
  ∀ target, ∃ text, o.render target = .ok (Text.Utf8.encode text) ∧ Go.lines text = ls

namespace Spec

open Emit

variable {enriched : Spec} {source : List UInt8} {path : Path} {policy : WritePolicy} {t : Template}
  {context : Context} {ls : List String} {o : Output}

theorem flat_of_breakless (ok : spec.enrich = .ok enriched) (breakless : enriched.Breakless)
    (member : p ∈ enriched.parameters) : Flat p :=
  ⟨⟨_, derived_parameter_of_ok ok member⟩, breakless.parameters p member⟩

theorem flatHandler_of_breakless (ok : spec.enrich = .ok enriched) (breakless : enriched.Breakless)
    (kind : HandlerKind) {key : String} (entry : (key, h) ∈ (enriched.handlers kind).entries) :
    FlatHandler h := by
  obtain ⟨_, _, becomes⟩ := enriched_handler_of_ok ok entry
  have named : key ∈ (enriched.handlers kind).names := List.mem_map_of_mem entry
  have root : enriched.packageRoot = spec.packageRoot := by rw [(enriched_of_ok ok).rest]
  refine ⟨?_, ?_, ?_, fun p member => flat_of_breakless ok breakless ?_⟩
  · rw [becomes.name]
    exact Naming.isWord_upperCamel key
  · rw [becomes.rawName]
    exact breakless.declared key (mem_declared_of_handler kind named)
  · rw [becomes.packageRoot, ← root]
    exact breakless.packageRoot
  · exact mem_parameters_of_handler (List.mem_map_of_mem entry) member

theorem single_connectionLines_of_breakless (ok : spec.enrich = .ok enriched)
    (breakless : enriched.Breakless) : Each IsLine (connectionLines enriched) := by
  have flat (p : Parameter) (member : p ∈ enriched.connection.values) : Flat p :=
    flat_of_breakless ok breakless (mem_parameters_of_connection member)
  have declarable := (enriched_of_ok ok).connection.declarable
  have key : IsLine enriched.connectionKey := by
    rw [(derived_of_ok ok).2]
    exact isLine_keyExpression fun p member => (declarable p member).1
  refine single_connectionLines breakless.name breakless.packageRoot declarable
    (fun p member => (flat p member).own) (fun p member => ?_) key
  obtain ⟨_, derived⟩ := (flat p member).derived
  exact derived.literals

theorem single_of_breakless (ok : spec.enrich = .ok enriched) (breakless : enriched.Breakless)
    (file : Plan.GoFile enriched path policy t context) (written : t.lines context = .ok ls) :
    Each IsLine ls := by
  have words (kind : HandlerKind) (h : Handler) (member : h ∈ (enriched.handlers kind).values) :
      IsWord h.name := (handler_of_ok ok member).1
  -- Each file has its own part of the spec; the stubs of the connection have none.
  cases file with
  | declaration entry =>
    cases written
    exact single_handlerLines _ (flatHandler_of_breakless ok breakless _ entry)
  | stub entry =>
    cases written
    exact single_stubLines _ (flatHandler_of_breakless ok breakless _ entry)
  | connection =>
    cases written
    exact single_connectionLines_of_breakless ok breakless
  | connect =>
    cases written
    exact single_connectLines
  | cache =>
    cases written
    exact single_cacheLines
  | program =>
    cases written
    exact single_programLines breakless.name breakless.packageRoot words
  | server =>
    cases written
    refine single_serverLines breakless.name fun h member => ?_
    obtain ⟨⟨key, h⟩, entry, rfl⟩ := List.mem_map.mp member
    have flat := flatHandler_of_breakless ok breakless .action entry
    exact ⟨flat.name, flat.own⟩
  | route entry =>
    cases written
    exact single_routeLines (flatHandler_of_breakless ok breakless .action entry)
  | @customType key type entry =>
    cases written
    obtain ⟨rawName, name, _⟩ := enriched_type_of_ok ok entry
    have named : key ∈ enriched.customTypes.names := List.mem_map_of_mem entry
    refine single_typeLines ?_ ?_ breakless.name breakless.packageRoot
      fun p member => flat_of_breakless ok breakless ?_
    · rw [name]
      exact Naming.isWord_upperCamel key
    · rw [rawName]
      exact breakless.declared key (mem_declared_of_type named)
    · exact mem_parameters_of_type (List.mem_map_of_mem entry) member

theorem readsAs_of_goFile (ok : spec.enrich = .ok enriched) (breakless : enriched.Breakless)
    (file : Plan.GoFile enriched path policy t context) (written : t.lines context = .ok ls)
    (body : o.body = .template t context) : o.ReadsAs ls := by
  have lines : o.lines? = some ls := by
    rw [Output.lines?, body]
    simp only [written, Except.toOption]
  have rendered (target : Path) : o.render target = .ok (Text.Utf8.encode (unlines ls)) := by
    refine o.render_of_lines? lines (fun t' context' own same found => ?_) target
    obtain ⟨rfl, rfl⟩ : t = t' ∧ context = context' := by simpa [body] using same
    exact Plan.spec_of_goFile file found ▸ breakless.writable
  exact fun target => ⟨_, rendered target, Go.lines_unlines (single_of_breakless ok breakless file written)⟩

theorem readsAs_of_breakless (ok : spec.enrich = .ok enriched) (breakless : enriched.Breakless)
    (member : o ∈ Plan.outputs enriched source) (go : o.isGo = true) (written : o.lines? = some ls) :
    o.ReadsAs ls := by
  obtain ⟨t, context, body, file⟩ := Plan.goFile_of_mem member go
  obtain ⟨lines, filled⟩ := Plan.lines_of_goFile file
  have same : lines = ls := by
    rw [Output.lines?, body] at written
    simpa [filled, Except.toOption] using written
  exact readsAs_of_goFile ok breakless file (same ▸ filled) body

/-- A plugin with a custom type, two actions and a trigger, all of them named by single words. -/
def messaging : Spec where
  name := "chat"
  packageRoot := "acme/chat"
  connection := ⟨[("host", { type := "string" })], by decide⟩
  actions := ⟨[("post", { input := ⟨[("author", { type := "user" })], by decide⟩ }), ("get", {})],
    by decide⟩
  triggers := ⟨[("tick", { output := ⟨[("at", { type := "date" })], by decide⟩ })], by decide⟩
  rawTypes := ⟨[("user", ⟨[("name", { type := "string" })], by decide⟩)], by decide⟩

def messagingFields : Section Parameter :=
  ⟨[("name", { rawName := "name", name := "Name", type := "string", internalType := "string" })],
    by decide⟩

def messagingEnriched : Spec :=
  { messaging with
    connection :=
      ⟨[("host", { rawName := "host", name := "Host", type := "string", internalType := "string" })],
        by decide⟩
    actions :=
      ⟨[("get", { rawName := "get", name := "Get", packageRoot := "acme/chat" }),
        ("post", { rawName := "post", name := "Post", packageRoot := "acme/chat",
                   input := ⟨[("author", { rawName := "author", name := "Author", type := "types.User",
                                           internalType := "User" })], by decide⟩ })], by decide⟩
    triggers :=
      ⟨[("tick", { rawName := "tick", name := "Tick", packageRoot := "acme/chat",
                   output := ⟨[("at", { rawName := "at", name := "At", type := "time.Time",
                                        internalType := "time.Time" })], by decide⟩ })], by decide⟩
    rawTypes := ⟨[("user", messagingFields)], by decide⟩
    customTypes := ⟨[("user", ⟨"user", "User", messagingFields, messagingFields.values⟩)], by decide⟩
    connectionKey := "c.Host"
    http := ⟨10001, 2, 2⟩ }

theorem enrich_messaging : messaging.enrich = .ok messagingEnriched := rfl

theorem plan_messaging : messagingEnriched.plan [] = .ok (Plan.outputs messagingEnriched []) :=
  plan_eq_ok.mpr ⟨rfl, by decide +kernel⟩

theorem plain_messaging : messagingEnriched.Plain :=
  ⟨⟨by decide, by decide, by decide, by decide, by decide +kernel⟩, by decide⟩

end Spec

end PluginCompiler
