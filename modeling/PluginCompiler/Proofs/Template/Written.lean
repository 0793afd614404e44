import PluginCompiler.Overview
import PluginCompiler.Proofs.Template.Pieces

/-! Every template writes the lines of its layout, provided that the numbers among them can be written. -/

set_option autoImplicit false

namespace PluginCompiler

namespace Emit

/-- By `unfold`, as the equation of the definition is slow to come by. -/
theorem generatedFrom_eq (origin : String) :
    generatedFrom origin = "// Code generated by plugspec from the " ++ (origin ++ ". DO NOT EDIT.") := by
  unfold generatedFrom
  exact String.append_assoc ..

theorem route_eq (h : Handler) :
    Emit.route h = "mux.HandleFunc(\"/actions/" ++ (h.rawName ++ ("\", Handle" ++ (h.name ++ ")"))) := by
  unfold Emit.route
  simp only [String.append_assoc]

theorem end_quote (s : String) : "\"" ++ (" " ++ s) = "\" " ++ s := by
  rw [← String.append_assoc]
  rfl

end Emit

namespace Template

open Emit

variable {calls : Calls} {scope : Scope} {spec : Spec} {h : Handler} {t : CustomType} {p : Parameter}
  {test : Expr}

theorem routeBody_lines (bound : scope.lookup "handler" = some (.handler h)) :
    routeBody.render Macro.call scope = .ok (unlines (routeLines h)) := by
  simp [routeBody, Template.generatedFrom, inQuotes, tabbed, render_line, render_fixed, bound, Body.render,
    ← unlines_append]
  simp only [routeLines, generatedFrom_eq, quoted, parensOf, paragraphs, indent, braces, bracesOf, httpError,
      rawQuoted, List.map_cons, List.map_nil, List.intercalate_cons_cons, List.intercalate_singleton,
      List.cons_append, List.nil_append, String.append_assoc, String.reduceAppend]

theorem stubBody_lines (kind : HandlerKind) (bound : scope.lookup "handler" = some (.handler h)) :
    (stubBody kind).render Macro.call scope = .ok (unlines (stubLines kind h)) := by
  cases kind
  · simp [stubBody, methodStart, tabbed, render_line, render_fixed, bound, Body.render,
      Template.ownedNote, ← unlines_append]
    simp [stubLines, actionStubLines, Emit.ownedNote, braces, bracesOf, paragraphs, indent, method,
      HandlerKind.receiver, HandlerKind.typeSuffix, String.append_assoc]
  · simp [stubBody, methodStart, tabbed, render_line, render_fixed, bound, Body.render,
      Template.ownedNote, ← unlines_append]
    simp [stubLines, triggerStubLines, Emit.ownedNote, braces, bracesOf, paragraphs, indent, method,
      HandlerKind.receiver, HandlerKind.typeSuffix, String.append_assoc]

theorem print_outputNote (kind : HandlerKind) (bound : scope.lookup "handler" = some (.handler h)) :
    print calls scope (outputNote kind) = .ok (kind.outputNote h) := by
  cases kind <;>
    simp [outputNote, bound, HandlerKind.outputNote, String.append_assoc]

theorem render_stateLines (kind : HandlerKind) (rest : Body)
    (bound : scope.lookup "handler" = some (.handler h)) :
    (stateLines kind rest).render calls scope = do
      return unlines (indent (handlerState kind h)) ++ (← rest.render calls scope) := by
  cases kind
  · simp [stateLines, render_fixed, handlerState, indent]
  · simp only [stateLines, tabbed, render_line, render_fixed]
    simp [bound, handlerState, indent, unlines_append_append, String.append_assoc]

theorem render_constantBlock {pieces : List Piece} {ls : List String} {has : Bool}
    (tested : test.eval calls scope = .ok (.text (if has then "yes" else "")))
    (empty : ls = [] ↔ has = false)
    (printed : print calls scope pieces = .ok (unlines (indent ls) ++ ")")) (rest : Body) :
    (Body.cond test (fixed ["", "const ("] <| line pieces .done) .done rest).render calls scope = do
      return unlines (constantBlock ls) ++ (← rest.render calls scope) := by
  cases has <;>
    simp_all [render_fixed, render_line, Body.render, constantBlock, apart, parens, parensOf, paragraphs,
      ← unlines_append]

theorem handlerBody_lines (kind : HandlerKind) (bound : scope.lookup "handler" = some (.handler h)) :
    (handlerBody kind).render Macro.call scope = .ok (unlines (handlerLines kind h)) := by
  have imported := call_importBlock (handlerImports h)
  simp only [handlerImports, List.map_append, List.map_cons, List.map_nil] at imported
  have tested : (Expr.or (.call .hasEnums (ofHandler "input")) (.call .hasEnums (ofHandler "output"))).eval
      Macro.call (("params", .list (h.input.values.map .parameter ++ h.output.values.map .parameter)) ::
        scope) = .ok (.text (if hasLiterals h.input || hasLiterals h.output then "yes" else "")) := by
    simp [bound, call_hasEnums]
  have empty : handlerConstants kind h = [] ↔ (hasLiterals h.input || hasLiterals h.output) = false := by
    simp [handlerConstants, sectionConstants_eq_nil]
  have printed : print Macro.call
      (("params", .list (h.input.values.map .parameter ++ h.output.values.map .parameter)) :: scope)
      [constantsOf (.joined (ofHandler "name") (.quoted "Input")) (ofHandler "input"),
       constantsOf (.joined (ofHandler "name") (.quoted kind.outputSuffix)) (ofHandler "output"), ")"] =
      .ok (unlines (indent (handlerConstants kind h)) ++ ")") := by
    simp [bound, call_enumConstants, handlerConstants, indent, unlines_append, String.append_assoc]
  have parameters : (Expr.plus (.filter .list (.values (ofHandler "input")))
      (.filter .list (.values (ofHandler "output")))).eval Macro.call scope =
        .ok (.list (h.input.values.map .parameter ++ h.output.values.map .parameter)) := by
    simp [bound]
  simp [handlerBody, methodLines, methodStart, Template.generatedFrom, inQuotes, tabbed,
    render_line, render_fixed, render_bind parameters, render_constantBlock tested empty printed,
    bound, imported, call_structFields, print_outputNote, render_stateLines]
  simp [handlerLines, handlerImports, end_quote, generatedFrom_eq, structType, braces, bracesOf, paragraphs,
    indent, method, quoted, String.append_assoc, ← unlines_append]

theorem connectionBody_lines (bound : scope.lookup "spec" = some (.spec spec)) :
    connectionBody.render Macro.call scope = .ok (unlines (connectionLines spec)) := by
  have imported := call_importBlock (connectionImports spec)
  have tested : (Expr.call .hasEnums (ofSpec "connection")).eval Macro.call scope =
      .ok (.text (if hasLiterals spec.connection then "yes" else "")) := by
    simp [bound, call_hasEnums]
  have printed : print Macro.call scope
      [constantsOf (.quoted "Data") (ofSpec "connection"), ")"] =
      .ok (unlines (indent (sectionConstants "Data" spec.connection)) ++ ")") := by
    simp [bound, call_enumConstants]
  simp only [connectionImports] at imported
  have helper : ((spec.connection.values.filter (·.nullable)).filter (·.type == "string")).isEmpty =
      !readsOptionalText spec.connection := by
    rw [Bool.eq_iff_iff]
    simp only [List.isEmpty_iff, List.filter_eq_nil_iff, List.mem_filter, Bool.not_eq_true', readsOptionalText,
      List.any_eq_false, Bool.and_eq_true, not_and, and_imp]
  simp [connectionBody, Template.generatedFrom, tabbed, render_line, render_fixed, render_cond,
    render_constantBlock tested (sectionConstants_eq_nil ..) printed, bound, imported,
    call_structFields, -List.filter_filter, helper]
  cases optional : readsOptionalText spec.connection <;>
    simp [connectionLines, optional, generatedFrom_eq, structType, braces, bracesOf, paragraphs, indent,
      connectionImports, optionalTextHelper, apart, String.append_assoc, ← unlines_append]

theorem connectBody_lines : connectBody.render Macro.call scope = .ok (unlines connectLines) := by
  simp [connectBody, render_fixed, Template.ownedNote, connectLines, Emit.ownedNote, braces, bracesOf,
    paragraphs, indent, ← unlines_append]

theorem cacheBody_lines : cacheBody.render Macro.call scope = .ok (unlines cacheLines) := by
  simp [cacheBody, render_fixed, Template.ownedNote, cacheLines, Emit.ownedNote, braces, bracesOf,
    paragraphs, parens, parensOf, indent, ← unlines_append]

theorem print_installed (bound : scope.lookup "spec" = some (.spec spec)) :
    print calls scope installed = .ok ("/bin/" ++ pluginName spec) := by
  simp [installed, orText, bound, pluginName]

theorem makefileBody_lines (bound : scope.lookup "spec" = some (.spec spec)) :
    makefileBody.render Macro.call scope = .ok (unlines (makefileLines spec)) := by
  simp [makefileBody, render_line, render_fixed, orText, bound]
  simp [makefileLines, rule, indent, pluginName, ← unlines_append]

theorem imageBody_lines (bound : scope.lookup "spec" = some (.spec spec))
    (writable : Text.isWritable spec.http.port) :
    imageBody.render Macro.call scope = .ok (unlines (imageLines spec)) := by
  simp [imageBody, render_line, render_fixed, print_append, inQuotes, bound, print_installed bound,
    written_number writable]
  simp [imageLines, quoted, String.append_assoc, ← unlines_append]

theorem render_memberLines (bound : scope.lookup "field" = some (.parameter p)) :
    memberLines.render calls scope = .ok (unlines (indent (typeField p))) := by
  have declared := render_fieldLines calls .done bound .inside
  cases embedded : p.embed
  · simp [memberLines, render_cond, declared, bound, typeField, embedded]
  · simp [memberLines, render_cond, tabbed, render_line, bound, typeField, embedded, indent]

theorem typeConstants_filter (t : CustomType) :
    (t.sortedFields.filter fun p => !p.enumLiterals.isEmpty).flatMap
      (fun p => indent (constants t.name (t.rawName ++ "." ++ p.rawName) p.enumLiterals)) =
      indent (typeConstants t) := by
  simp only [typeConstants, indent, List.map_flatMap]
  induction t.sortedFields with
  | nil => rfl
  | cons p ps ih =>
    rw [List.filter_cons, List.flatMap_cons, ← ih]
    cases literals : p.enumLiterals <;> simp [literals, constants]

theorem render_typeConstants (bound : scope.lookup "type" = some (.type t)) :
    (Body.cond (.var "enum_fields")
      (fixed ["", "const ("] <|
       .each "field" (.var "enum_fields") none
        (constantLines "field" (of "type" "name") [of "type" "raw_name", ".", of "field" "raw_name"]) <|
       fixed [")"] .done) .done .done).render Macro.call
      (("enum_fields", .list ((t.sortedFields.filter fun p => !p.enumLiterals.isEmpty).map .parameter)) ::
        scope) = .ok (unlines (constantBlock (typeConstants t))) := by
  have filtered := typeConstants_filter t
  have empty : (t.sortedFields.filter fun p => !p.enumLiterals.isEmpty) = [] ↔ typeConstants t = [] := by
    simp [typeConstants, List.flatMap_eq_nil_iff, constants_eq_nil]
  generalize t.sortedFields.filter (fun p => !p.enumLiterals.isEmpty) = kept at filtered empty ⊢
  have read : ((Expr.var "enum_fields").eval Macro.call
      (("enum_fields", .list (kept.map .parameter)) :: scope) >>= Datum.items) =
      .ok (kept.map .parameter) := by
    simp
  have writes (isFirst : Bool) (p : Parameter) (_ : p ∈ kept) :
      (constantLines "field" (of "type" "name") [of "type" "raw_name", ".", of "field" "raw_name"]).render
        Macro.call (("loop", .loop isFirst) :: ("field", .parameter p) ::
          ("enum_fields", .list (kept.map .parameter)) :: scope) =
      .ok (unlines (indent (constants t.name (t.rawName ++ "." ++ p.rawName) p.enumLiterals))) :=
    render_constantLines rfl (fun _ _ => by simp [bound]) fun _ _ => by simp [bound, String.append_assoc]
  simp only [render_cond, render_fixed, render_each read writes, filtered]
  by_cases none : typeConstants t = []
  · simp [empty, none, constantBlock]
  · simp [empty, none, constantBlock, apart, parens, parensOf, paragraphs, ← unlines_append]

theorem typeBody_lines (bound : scope.lookup "spec" = some (.spec spec))
    (own : scope.lookup "type" = some (.type t)) :
    typeBody.render Macro.call scope = .ok (unlines (typeLines t spec)) := by
  have read : ((of "type" "sorted_fields").eval Macro.call scope >>= Datum.items) =
      .ok (t.sortedFields.map .parameter) := by
    simp [own]
  have imported := call_importBlock (typeImports t spec)
  simp only [typeImports] at imported
  simp [typeBody, Template.generatedFrom, inQuotes, render_line, render_fixed, render_bind,
    render_each (x := "field") read fun _ _ _ => render_memberLines rfl, render_typeConstants own, bound, own,
    imported]
  simp [typeLines, typeImports, generatedFrom_eq, structType, braces, bracesOf, paragraphs, indent, quoted,
    String.append_assoc, ← unlines_append, List.map_flatMap]

theorem render_actionCase (bound : scope.lookup "action" = some (.handler h)) :
    Template.actionCase.render calls scope = .ok (unlines (indent (Emit.actionCase h))) := by
  simp [Template.actionCase, tabbed, render_line, render_fixed, bound]
  simp [Emit.actionCase, indent, decodeStep, returnOnError, braces, bracesOf, paragraphs,
    String.append_assoc, ← unlines_append]

theorem render_triggerCase (bound : scope.lookup "trigger" = some (.handler h)) :
    Template.triggerCase.render calls scope = .ok (unlines (indent (Emit.triggerCase h))) := by
  simp [Template.triggerCase, tabbed, render_line, render_fixed, bound]
  simp [Emit.triggerCase, indent, decodeStep, braces, bracesOf, paragraphs,
    String.append_assoc, ← unlines_append]

theorem render_handlersImport {section_ : String} {s : Section Handler} (rest : Body)
    (bound : scope.lookup "spec" = some (.spec spec))
    (read : (ofSpec section_).eval calls scope = .ok (.ofSection .handler s)) :
    (handlersImport section_ rest).render calls scope = do
      return unlines (indent (if s.isEmpty then [] else [quoted (spec.packageRoot ++ ("/" ++ section_))])) ++
        (← rest.render calls scope) := by
  have root : (ofSpec "package_root").eval calls scope = .ok (.text spec.packageRoot) := by
    simp [bound]
  cases empty : s.isEmpty <;>
    simp [handlersImport, inQuotes, tabbed, render_cond, render_line, read, empty, indent, quoted,
      String.append_assoc, root, -eval_of]

theorem isWritable_port {http : HttpSettings} (writable : http.isWritable) : Text.isWritable http.port := by
  simp_all [HttpSettings.isWritable]

theorem programBody_lines (bound : scope.lookup "spec" = some (.spec spec))
    (writable : Text.isWritable spec.http.port) :
    programBody.render Macro.call scope = .ok (unlines (programLines spec)) := by
  have port := written_number writable
  have actions : (ofSpec "actions").eval Macro.call scope = .ok (.ofSection .handler spec.actions) := by
    simp [bound]
  have triggers : (ofSpec "triggers").eval Macro.call scope = .ok (.ofSection .handler spec.triggers) := by
    simp [bound]
  simp [programBody, Template.generatedFrom, inQuotes, tabbed, render_line, render_fixed, bound, port,
    render_handlersImport _ bound actions, render_handlersImport _ bound triggers,
    render_each (x := "action") (items_values actions) (fun _ _ _ => render_actionCase rfl),
    render_each (x := "trigger") (items_values triggers) (fun _ _ _ => render_triggerCase rfl)]
  simp [programLines, programImports, generatedFrom_eq, parensOf, paragraphs, indent, messageTypes,
    entryFunction, dispatchFunction, decodeFunction, rawQuoted, quoted, braces, bracesOf, structType, switch,
    String.append_assoc, ← unlines_append, List.map_flatMap]

theorem serverBody_lines (bound : scope.lookup "spec" = some (.spec spec))
    (writable : spec.http.isWritable) :
    serverBody.render Macro.call scope = .ok (unlines (serverLines spec)) := by
  have read : ((Expr.values (ofSpec "actions")).eval Macro.call scope >>= Datum.items) =
      .ok (spec.actions.values.map .handler) :=
    items_values (by simp [bound])
  have routes (isFirst : Bool) (h : Handler) (_ : h ∈ spec.actions.values) :
      routeEntry.render Macro.call
          (("loop", .loop isFirst) :: ("action", .handler h) :: scope) =
      .ok (unlines ["\t" ++ Emit.route h]) := by
    simp [routeEntry, tabbed, render_line, route_eq]
  simp only [HttpSettings.isWritable, List.all_cons, List.all_nil, Bool.and_true, Bool.and_eq_true] at writable
  have port := written_number writable.1
  have reading := written_number writable.2.1
  have writing := written_number writable.2.2
  simp [serverBody, Template.generatedFrom, tabbed, render_line, render_fixed, render_each read routes,
    bound, port, reading, writing]
  simp [serverLines, generatedFrom_eq, parens, parensOf, paragraphs, indent, braces, bracesOf, quoted,
    String.append_assoc, ← unlines_append, ← List.map_eq_flatMap, Function.comp_def]

end Template

namespace Context

theorem lookup_spec (c : Context) : c.scope.lookup "spec" = c.spec.map .spec := by
  cases c with
  | mk spec handler type => cases spec <;> cases handler <;> cases type <;> rfl

theorem lookup_handler (c : Context) : c.scope.lookup "handler" = c.handler.map .handler := by
  cases c with
  | mk spec handler type => cases spec <;> cases handler <;> cases type <;> rfl

theorem lookup_type (c : Context) : c.scope.lookup "type" = c.type.map .type := by
  cases c with
  | mk spec handler type => cases spec <;> cases handler <;> cases type <;> rfl

end Context

namespace Template

variable {t : Template} {c : Context} {ls : List String}

theorem need_map_eq_ok {α : Type} {v : String} {a : Option α} {f : α → List String} :
    (need v a).map f = .ok ls ↔ ∃ x, a = some x ∧ f x = ls := by
  cases a <;> simp [need, Except.map]

/-- A template that has what it needs writes its lines, if the numbers can be written. -/
theorem render_body_of_lines (filled : t.lines c = .ok ls)
    (writable : ∀ spec, c.spec = some spec → spec.http.isWritable) :
    t.body.render Macro.call c.scope = .ok (Emit.unlines ls) := by
  have ofSpec {spec : Spec} (found : c.spec = some spec) : c.scope.lookup "spec" = some (.spec spec) := by
    rw [c.lookup_spec, found, Option.map_some]
  have ofHandler {h : Handler} (found : c.handler = some h) :
      c.scope.lookup "handler" = some (.handler h) := by
    rw [c.lookup_handler, found, Option.map_some]
  cases t with
  | handler kind =>
    obtain ⟨h, found, rfl⟩ := need_map_eq_ok.mp filled
    exact handlerBody_lines kind (ofHandler found)
  | stub kind =>
    obtain ⟨h, found, rfl⟩ := need_map_eq_ok.mp filled
    exact stubBody_lines kind (ofHandler found)
  | route =>
    obtain ⟨h, found, rfl⟩ := need_map_eq_ok.mp filled
    exact routeBody_lines (ofHandler found)
  | connection =>
    obtain ⟨spec, found, rfl⟩ := need_map_eq_ok.mp filled
    exact connectionBody_lines (ofSpec found)
  | program =>
    obtain ⟨spec, found, rfl⟩ := need_map_eq_ok.mp filled
    exact programBody_lines (ofSpec found) (isWritable_port (writable spec found))
  | server =>
    obtain ⟨spec, found, rfl⟩ := need_map_eq_ok.mp filled
    exact serverBody_lines (ofSpec found) (writable spec found)
  | image =>
    obtain ⟨spec, found, rfl⟩ := need_map_eq_ok.mp filled
    exact imageBody_lines (ofSpec found) (isWritable_port (writable spec found))
  | makefile =>
    obtain ⟨spec, found, rfl⟩ := need_map_eq_ok.mp filled
    exact makefileBody_lines (ofSpec found)
  | customType =>
    -- The only template that is filled in with two things.
    simp only [lines] at filled
    split at filled
    · cases filled
    next own type =>
      cases found : c.type with
      | none => simp [need, found] at type
      | some t =>
        obtain rfl : t = own := by simpa [need, found] using type
        obtain ⟨spec, bound, rfl⟩ := need_map_eq_ok.mp filled
        exact typeBody_lines (ofSpec bound) (by rw [c.lookup_type, found, Option.map_some])
  | connect => cases filled; exact connectBody_lines
  | cache => cases filled; exact cacheBody_lines
  | shared => cases filled; exact (render_fixed ..).trans (by simp)

theorem render_of_body {s : String} (written : t.body.render Macro.call c.scope = .ok s)
    (path : Option String) : t.render c path = .ok s := by
  rw [render, renderAs, written]
  rfl

theorem render_of_lines (filled : t.lines c = .ok ls)
    (writable : ∀ spec, c.spec = some spec → spec.http.isWritable) (path : Option String) :
    t.render c path = .ok (Emit.unlines ls) :=
  render_of_body (render_body_of_lines filled writable) path

end Template

end PluginCompiler
