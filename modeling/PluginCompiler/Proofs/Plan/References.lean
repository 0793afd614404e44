import PluginCompiler.Proofs.Emit.Dispatch

/-! What the planned files take from each other. Every custom type that a parameter is built on has a
file that declares it, and so has every name that the command and the server take from the packages of
handlers. What a server registers can be read as the routes of the actions exactly if their names are
written as they are. -/

set_option autoImplicit false

namespace PluginCompiler

open Emit (takenNames)
open Naming (IsWord upperCamel)

namespace Plan

/-- A case for the handler `key`. It is labelled by the name of the handler, and what it takes from the
package of the handler is declared in the file of the handler. -/
structure CaseFor (os : List Output) (kind : HandlerKind) (key : String) (c : Go.Case) : Prop where
  label : c.label = Go.quote key
  read : Go.literal? c.label.toList = some (key, [])
  taken : c.selected kind.package = takenNames kind (upperCamel key)
  declared : ∃ ls, Provides os (declarationPath kind key) kind.package ls ∧
    c.selected kind.package ⊆ Go.declaredRecords ls

structure Dispatches (spec : Spec) (os : List Output) (kind : HandlerKind) (ls : List String) : Prop where
  rising : (spec.handlers kind).names.Pairwise (· < ·)
  cases : List.Forall₂ (CaseFor os kind) (spec.handlers kind).names (Go.cases kind.subject ls)
  distinct : ((Go.cases kind.subject ls).map Go.Case.label).Nodup
  imported : Emit.quoted (spec.packageRoot ++ "/" ++ kind.package) ∈ Go.imports ls ↔
    (spec.handlers kind).names ≠ []

structure RouteFor (os : List Output) (key line : String) : Prop where
  written : line = "\t" ++ ("mux.HandleFunc(\"/actions/" ++ key ++ "\", Handle" ++ upperCamel key ++ ")")
  declared : ∃ ls, Provides os (routePath key) "server" ls ∧
    Go.declaredFunctions ls = ["Handle" ++ upperCamel key]

structure Serves (spec : Spec) (os : List Output) (ls : List String) : Prop where
  registered : List.Forall₂ (RouteFor os) spec.actions.names (Go.registrations ls)
  read : Go.routes ls = spec.actions.names.map (fun key => ("/actions/" ++ key, "Handle" ++ upperCamel key)) ↔
    ∀ key ∈ spec.actions.names, Go.IsVerbatim key

/-- What the planned files refer to is declared by planned files. -/
structure References (spec : Spec) (os : List Output) : Prop where
  types : ∀ p ∈ spec.parameters, ∀ name, Go.qualified? "types" p.type = some name →
    ∃ key ∈ spec.customTypes.names, ∃ ls, Provides os (typePath key) "types" ls ∧
      name ∈ Go.declaredRecords ls ∧
      "type " ++ name ++ " struct \x7b" ∈ Go.lines (Emit.unlines ls)
  program : ∃ ls, Provides os (inDirectory ["cmd"] "main.go") "main" ls ∧ ∀ kind, Dispatches spec os kind ls
  server : ∃ ls, Provides os (inDirectory ["server", "http"] "server.go") "server" ls ∧ Serves spec os ls

end Plan

namespace Spec

variable {spec enriched : Spec} {source : List UInt8} {os : List Output} {kind : HandlerKind}
  {key : String} {h : Handler}

theorem caseFor_of_ok (ok : spec.enrich = .ok enriched) (source : List UInt8)
    (entry : (key, h) ∈ (enriched.handlers kind).entries) :
    Plan.CaseFor (Plan.outputs enriched source) kind key
      ⟨Go.quote h.rawName, Emit.indent (Emit.caseLines kind h).tail⟩ := by
  obtain ⟨_, _, becomes⟩ := enriched_handler_of_ok ok entry
  have word : IsWord h.name := (handler_of_ok ok (List.mem_map_of_mem entry)).1
  have taken : Go.Case.selected kind.package ⟨Go.quote h.rawName, Emit.indent (Emit.caseLines kind h).tail⟩ =
      takenNames kind h.name := Emit.selected_caseLines kind word
  have read := Go.literal?_quote key []
  rw [List.append_nil] at read
  rw [becomes.rawName] at taken ⊢
  refine ⟨rfl, read, by rw [taken, becomes.name], Emit.handlerLines kind h,
    Plan.provides_of_goFile source (.declaration entry) rfl (Emit.package?_handlerLines kind h), ?_⟩
  rw [taken, Emit.declaredRecords_handlerLines kind word]
  exact Emit.takenNames_subset kind h.name

theorem handler_named_of_ok (ok : spec.enrich = .ok enriched) (kind : HandlerKind) :
    ∀ e ∈ (enriched.handlers kind).entries, e.2.rawName = e.1 ∧ e.2.name = upperCamel e.1 := by
  rintro ⟨key, h⟩ entry
  obtain ⟨_, _, becomes⟩ := enriched_handler_of_ok ok entry
  exact ⟨becomes.rawName, becomes.name⟩

theorem dispatches_of_ok (ok : spec.enrich = .ok enriched) (source : List UInt8) (kind : HandlerKind) :
    Plan.Dispatches enriched (Plan.outputs enriched source) kind (Emit.programLines enriched) where
  rising := List.pairwise_map.mpr (ordered_handlers_of_ok ok kind).rising
  cases := by
    rw [Emit.cases_programLines, Section.names, Section.values, List.map_map, List.forall₂_map_left_iff,
      List.forall₂_map_right_iff, List.forall₂_same]
    exact fun e entry => caseFor_of_ok ok source entry
  distinct := by
    have labels : (Go.cases kind.subject (Emit.programLines enriched)).map Go.Case.label =
        (enriched.handlers kind).names.map Go.quote := by
      rw [Emit.cases_programLines, Section.values, Section.names, List.map_map, List.map_map, List.map_map]
      exact List.map_congr_left fun e entry => congrArg Go.quote (handler_named_of_ok ok kind e entry).1
    rw [labels]
    exact (enriched.handlers kind).distinct.map fun _ _ => Go.quote_injective
  imported := by
    rw [Emit.mem_imports_programLines, Section.values, Section.names, ne_eq, ne_eq, List.map_eq_nil_iff,
      List.map_eq_nil_iff]

theorem serves_of_ok (ok : spec.enrich = .ok enriched) (source : List UInt8) :
    Plan.Serves enriched (Plan.outputs enriched source) (Emit.serverLines enriched) where
  registered := by
    rw [Emit.registrations_serverLines, Emit.indent, Section.values, Section.names, List.map_map,
      List.map_map, List.forall₂_map_left_iff, List.forall₂_map_right_iff, List.forall₂_same]
    intro e entry
    obtain ⟨rawName, name⟩ := handler_named_of_ok ok .action e entry
    have member : e.2 ∈ (enriched.handlers .action).values := List.mem_map_of_mem entry
    have word : IsWord e.2.name := (handler_of_ok ok member).1
    refine ⟨?_, Emit.routeLines e.2,
      Plan.provides_of_goFile source (.route entry) rfl (Emit.package?_routeLines e.2), ?_⟩
    · rw [← name, ← rawName]
      rfl
    · rw [Emit.declaredFunctions_routeLines word, name]
  read := by
    have words (h : Handler) (member : h ∈ enriched.actions.values) : IsWord h.name :=
      (handler_of_ok ok (show h ∈ (enriched.handlers .action).values from member)).1
    have routed : enriched.actions.names.map (fun key => ("/actions/" ++ key, "Handle" ++ upperCamel key)) =
        enriched.actions.values.map fun h => ("/actions/" ++ h.rawName, "Handle" ++ h.name) := by
      rw [Section.names, Section.values, List.map_map, List.map_map]
      apply List.map_congr_left
      intro e entry
      obtain ⟨rawName, name⟩ := handler_named_of_ok ok .action e entry
      rw [Function.comp_apply, Function.comp_apply, rawName, name]
    have keys : (∀ h ∈ enriched.actions.values, Go.IsVerbatim h.rawName) ↔
        ∀ key ∈ enriched.actions.names, Go.IsVerbatim key := by
      rw [Section.names, Section.values, List.forall_mem_map, List.forall_mem_map]
      exact forall₂_congr fun e entry => by rw [(handler_named_of_ok ok .action e entry).1]
    rw [routed, Emit.routes_serverLines_iff words, keys]

theorem declared_type_of_ok (ok : spec.enrich = .ok enriched) (source : List UInt8) {p : Parameter}
    (member : p ∈ enriched.parameters) {name : String}
    (qualified : Go.qualified? "types" p.type = some name) :
    ∃ key ∈ enriched.customTypes.names, ∃ ls,
      Plan.Provides (Plan.outputs enriched source) (Plan.typePath key) "types" ls ∧
        name ∈ Go.declaredRecords ls ∧
        "type " ++ name ++ " struct \x7b" ∈ Go.lines (Emit.unlines ls) := by
  obtain ⟨type, outside, _, known⟩ := (derived_parameter_of_ok ok member).type
  have custom : type.custom?.map upperCamel = some name := by
    rw [← Go.GoType.qualified?_expression, ← outside]
    exact qualified
  obtain ⟨key, built, rfl⟩ := Option.map_eq_some_iff.mp custom
  have declared : key ∈ enriched.customTypes.names :=
    (enriched_of_ok ok).ordered.2.1.names.mem_iff.mpr (known key built)
  obtain ⟨⟨key, t⟩, entry, rfl⟩ := List.mem_map.mp declared
  have name := (enriched_type_of_ok ok entry).2.1
  have word : IsWord t.name := name ▸ Naming.isWord_upperCamel key
  have head := (Emit.encloses_members t enriched).head_mem
  rw [← Go.recordHead_eq] at head
  refine ⟨key, declared, Emit.typeLines t enriched,
    Plan.provides_of_goFile source (.customType entry) rfl (Emit.package?_typeLines t enriched), ?_, ?_⟩
  · rw [Emit.declaredRecords_typeLines word, ← name]
    exact List.mem_singleton_self _
  · rw [← name]
    refine (Go.mem_lines_iff head).mpr ?_
    simp only [Go.isLine_append, Go.isLine_of_isWord word, and_true]
    constructor <;> exact Go.isLine_literal rfl

/-- What the files of a plan refer to is declared in the plan. -/
theorem references_of_plan (ok : spec.enrich = .ok enriched) (planned : enriched.plan source = .ok os) :
    Plan.References enriched os ∧
      (enriched.Plain → ∀ o ∈ os, o.isGo = true → ∀ ls, o.lines? = some ls → o.ReadsAs ls) := by
  have same := (plan_eq_ok.mp planned).1
  subst same
  refine ⟨⟨fun p member name => declared_type_of_ok ok source member,
    ⟨_, Plan.provides_of_goFile source .program rfl (Emit.package?_programLines enriched),
      dispatches_of_ok ok source⟩,
    ⟨_, Plan.provides_of_goFile source .server rfl (Emit.package?_serverLines enriched),
      serves_of_ok ok source⟩⟩, fun plain o member go ls => readsAs_of_breakless ok plain.toBreakless member go⟩

theorem references_of_plan_messaging :
    messaging.enrich = .ok messagingEnriched ∧
      messagingEnriched.plan [] = .ok (Plan.outputs messagingEnriched []) ∧
      Plan.References messagingEnriched (Plan.outputs messagingEnriched []) ∧ messagingEnriched.Plain ∧
      ∀ o ∈ Plan.outputs messagingEnriched [], o.isGo = true → ∀ ls, o.lines? = some ls →
        o.ReadsAs ls := by
  obtain ⟨references, reads⟩ := references_of_plan enrich_messaging plan_messaging
  exact ⟨enrich_messaging, plan_messaging, references, plain_messaging, reads plain_messaging⟩

/-- An action whose name ends the text of its route and starts another one. -/
def splicing : Spec where
  actions := ⟨[("a\", B)\n\tmux.HandleFunc(\"b", {})], by decide⟩

def spliced : Handler :=
  { rawName := "a\", B)\n\tmux.HandleFunc(\"b", name := "ABMuxHandleFuncB" }

def splicingEnriched : Spec :=
  { splicing with
    actions := ⟨[(spliced.rawName, spliced)], by decide⟩
    connectionKey := "\"\""
    http := ⟨10001, 2, 2⟩ }

/-- The server may register what is no action. -/
theorem not_registered_per_action :
    ¬ ∀ (spec enriched : Spec) (source : List UInt8) (os : List Output),
      spec.enrich = .ok enriched → enriched.plan source = .ok os → ∀ ls,
        Plan.Provides os (Plan.inDirectory ["server", "http"] "server.go") "server" ls →
          ∀ l ∈ Go.lines (Emit.unlines ls), "\tmux.HandleFunc(".toList <+: l.toList →
            l ∈ Emit.indent (enriched.actions.values.map Emit.route) := by
  intro registered
  have planned : splicingEnriched.plan [] = .ok (Plan.outputs splicingEnriched []) :=
    plan_eq_ok.mpr ⟨rfl, by decide +kernel⟩
  have member : "\tmux.HandleFunc(\"b\", HandleABMuxHandleFuncB)" ∈
      Go.lines (Emit.unlines (Emit.serverLines splicingEnriched)) := by
    have written : "\t" ++ Emit.route spliced ∈ Emit.serverLines splicingEnriched := by
      unfold Emit.serverLines
      rw [List.mem_append, Go.braces_eq]
      refine .inr (List.mem_cons_of_mem _ (List.mem_append_left _ ?_))
      exact List.mem_map_of_mem (by simp [splicingEnriched, Section.values])
    rw [Go.lines_unlines_eq]
    refine List.mem_flatMap.mpr ⟨_, written, ?_⟩
    decide +kernel
  have own := registered splicing splicingEnriched [] _ rfl planned _
    (Plan.provides_of_goFile [] .server rfl (Emit.package?_serverLines _)) _ member
    (List.isPrefixOf_iff_prefix.mp (by decide +kernel))
  -- The line that is written for the action has a break in it.
  obtain ⟨line, inside, same⟩ := List.mem_map.mp own
  rw [List.mem_singleton.mp inside] at same
  have single := Go.isLine_of_mem_lines member
  rw [← same] at single
  exact absurd single (by decide +kernel)

end Spec

end PluginCompiler
