import PluginCompiler.Proofs.Emit.Declared
import PluginCompiler.Proofs.Plan.Listing
import PluginCompiler.Proofs.Template.Written

/-! The planned files of generated code: what each is filled in with, its lines, and which files say
that they belong to one package. -/

set_option autoImplicit false

namespace PluginCompiler

variable {o : Output} {ls : List String}

namespace Output

def lines? (o : Output) : Option (List String) :=
  match o.body with
  | .template t context => (t.lines context).toOption
  | .verbatim _ => none

def package? (o : Output) : Option String := o.lines?.bind Go.package?

theorem package?_of_lines? (written : o.lines? = some ls) : o.package? = Go.package? ls := by
  rw [package?, written, Option.bind_some]

def isGo (o : Output) : Bool := ".go".toList.isSuffixOf o.path.toString.toList

theorem render_of_lines? (written : o.lines? = some ls)
    (writable : ∀ t context spec, o.body = .template t context → context.spec = some spec →
      spec.http.isWritable) (target : Path) :
    o.render target = .ok (Text.Utf8.encode (Emit.unlines ls)) := by
  cases body : o.body with
  | verbatim content =>
    simp only [lines?, body] at written
    cases written
  | template t context =>
    simp only [lines?, body] at written
    cases filled : t.lines context with
    | error problem =>
      rw [filled] at written
      cases written
    | ok lines =>
      rw [filled] at written
      cases written
      simp only [render, body,
        Template.render_of_lines filled (fun spec found => writable t context spec body found)]
      rfl

end Output

namespace Plan

variable {spec : Spec} {source : List UInt8} {path : Path} {policy : WritePolicy} {t : Template}
  {context : Context} {kind : HandlerKind} {name package : String} {h : Handler} {os more : List Output}

/-- A planned file of generated code, with the template that it comes from. -/
inductive GoFile (spec : Spec) : Path → WritePolicy → Template → Context → Prop where
  | declaration {kind : HandlerKind} {name : String} {h : Handler}
      (entry : (name, h) ∈ (spec.handlers kind).entries) :
      GoFile spec (declarationPath kind name) .always (.handler kind) { handler := some h }
  | stub {kind : HandlerKind} {name : String} {h : Handler}
      (entry : (name, h) ∈ (spec.handlers kind).entries) :
      GoFile spec (stubPath kind name) .once (.stub kind) { handler := some h }
  | connection : GoFile spec (inDirectory ["connection"] "connection.go") .always .connection
      { spec := some spec }
  | connect : GoFile spec (inDirectory ["connection"] "connect.go") .once .connect
      { spec := some spec }
  | cache : GoFile spec (inDirectory ["connection"] "cache.go") .once .cache { spec := some spec }
  | program : GoFile spec (inDirectory ["cmd"] "main.go") .always .program { spec := some spec }
  | server : GoFile spec (inDirectory ["server", "http"] "server.go") .always .server
      { spec := some spec }
  | route {name : String} {h : Handler} (entry : (name, h) ∈ spec.actions.entries) :
      GoFile spec (routePath name) .always .route { handler := some h, spec := some spec }
  | customType {name : String} {type : CustomType} (entry : (name, type) ∈ spec.customTypes.entries) :
      GoFile spec (typePath name) .always .customType { type := some type, spec := some spec }

theorem goFile_of_handler (kind : HandlerKind) (member : o ∈ handlerOutputs kind (spec.handlers kind)) :
    ∃ t context, o.body = .template t context ∧ GoFile spec o.path o.policy t context := by
  simp only [handlerOutputs, List.mem_flatMap] at member
  obtain ⟨⟨name, h⟩, entry, member⟩ := member
  simp only [List.mem_cons, List.not_mem_nil, or_false] at member
  rcases member with rfl | rfl
  · exact ⟨_, _, rfl, .declaration entry⟩
  · exact ⟨_, _, rfl, .stub entry⟩

theorem not_isGo_of_build (member : o ∈ buildOutputs spec source) : o.isGo = false := by
  simp only [buildOutputs, List.mem_cons, List.not_mem_nil, or_false] at member
  rcases member with rfl | rfl | rfl | rfl
  all_goals
    simp only [Output.isGo]
    decide

theorem goFile_or_build_of_mem (member : o ∈ outputs spec source) :
    (∃ t context, o.body = .template t context ∧ GoFile spec o.path o.policy t context) ∨
      o ∈ buildOutputs spec source := by
  rcases mem_outputs.mp member with ⟨kind, member⟩ | member | member | member | member | member
  · exact .inl (goFile_of_handler kind member)
  · simp only [connectionOutputs, List.mem_cons, List.not_mem_nil, or_false] at member
    rcases member with rfl | rfl | rfl
    · exact .inl ⟨_, _, rfl, .connection⟩
    · exact .inl ⟨_, _, rfl, .connect⟩
    · exact .inl ⟨_, _, rfl, .cache⟩
  · simp only [programOutputs, List.mem_cons, List.not_mem_nil, or_false] at member
    rcases member with rfl | rfl
    · exact .inl ⟨_, _, rfl, .program⟩
    · exact .inl ⟨_, _, rfl, .server⟩
  · obtain ⟨⟨name, h⟩, entry, rfl⟩ := List.mem_map.mp member
    exact .inl ⟨_, _, rfl, .route entry⟩
  · obtain ⟨⟨name, type⟩, entry, rfl⟩ := List.mem_map.mp member
    exact .inl ⟨_, _, rfl, .customType entry⟩
  · exact .inr member

theorem spec_of_goFile (file : GoFile spec path policy t context) {own : Spec}
    (found : context.spec = some own) : own = spec := by
  cases file <;> simp_all

theorem spec_of_mem (member : o ∈ outputs spec source) (body : o.body = .template t context)
    {own : Spec} (found : context.spec = some own) : own = spec := by
  rcases goFile_or_build_of_mem member with ⟨t', context', same, file⟩ | build
  · obtain ⟨rfl, rfl⟩ : t = t' ∧ context = context' := by simpa [body] using same
    exact spec_of_goFile file found
  · simp only [buildOutputs, List.mem_cons, List.not_mem_nil, or_false] at build
    rcases build with rfl | rfl | rfl | rfl <;> cases body
    all_goals simpa using found.symm

theorem render_of_mem (member : o ∈ outputs spec source) (writable : spec.http.isWritable)
    (written : o.lines? = some ls) (target : Path) :
    o.render target = .ok (Text.Utf8.encode (Emit.unlines ls)) :=
  o.render_of_lines? written
    (fun _ _ _ body found => spec_of_mem member body found ▸ writable) target

theorem goFile_of_mem (member : o ∈ outputs spec source) (go : o.isGo = true) :
    ∃ t context, o.body = .template t context ∧ GoFile spec o.path o.policy t context := by
  refine (goFile_or_build_of_mem member).resolve_right fun build => ?_
  rw [not_isGo_of_build build] at go
  cases go

theorem exists_of_goFile (source : List UInt8) (file : GoFile spec path policy t context) :
    ∃ o ∈ outputs spec source, o.path = path ∧ o.policy = policy ∧ o.body = .template t context := by
  have connection {o : Output} (member : o ∈ connectionOutputs spec) : o ∈ outputs spec source :=
    mem_outputs.mpr (.inr (.inl member))
  have program {o : Output} (member : o ∈ programOutputs spec) : o ∈ outputs spec source :=
    mem_outputs.mpr (.inr (.inr (.inl member)))
  cases file with
  | @declaration kind name h entry =>
    exact ⟨_, mem_outputs.mpr (.inl ⟨kind, List.mem_flatMap.mpr ⟨_, entry, List.mem_cons_self⟩⟩),
      rfl, rfl, rfl⟩
  | @stub kind name h entry =>
    exact ⟨_, mem_outputs.mpr (.inl ⟨kind, List.mem_flatMap.mpr ⟨_, entry,
      List.mem_cons_of_mem _ List.mem_cons_self⟩⟩), rfl, rfl, rfl⟩
  | connection => exact ⟨_, connection List.mem_cons_self, rfl, rfl, rfl⟩
  | connect => exact ⟨_, connection (List.mem_cons_of_mem _ List.mem_cons_self), rfl, rfl, rfl⟩
  | cache =>
    exact ⟨_, connection (List.mem_cons_of_mem _ (List.mem_cons_of_mem _ List.mem_cons_self)),
      rfl, rfl, rfl⟩
  | program => exact ⟨_, program List.mem_cons_self, rfl, rfl, rfl⟩
  | server => exact ⟨_, program (List.mem_cons_of_mem _ List.mem_cons_self), rfl, rfl, rfl⟩
  | @route name h entry =>
    exact ⟨_, mem_outputs.mpr (.inr (.inr (.inr (.inl (List.mem_map.mpr ⟨_, entry, rfl⟩))))),
      rfl, rfl, rfl⟩
  | @customType name type entry =>
    exact ⟨_, mem_outputs.mpr (.inr (.inr (.inr (.inr (.inl (List.mem_map.mpr ⟨_, entry, rfl⟩)))))),
      rfl, rfl, rfl⟩

theorem lines_of_goFile (file : GoFile spec path policy t context) :
    ∃ ls, t.lines context = .ok ls := by
  cases file with
  | @declaration kind _ _ _ => exact ⟨_, rfl⟩
  | _ => exact ⟨_, rfl⟩

/-- A planned file of a package, with its path and its lines. -/
def Provides (os : List Output) (path : Path) (package : String) (ls : List String) : Prop :=
  ∃ o ∈ os, o.path = path ∧ o.package? = some package ∧ o.lines? = some ls

theorem provides_of_goFile (source : List UInt8) (file : GoFile spec path policy t context)
    (filled : t.lines context = .ok ls) (belongs : Go.package? ls = some package) :
    Provides (outputs spec source) path package ls := by
  obtain ⟨o, member, same, _, body⟩ := exists_of_goFile source file
  have written : o.lines? = some ls := by
    rw [Output.lines?, body]
    simp only [filled, Except.toOption]
  exact ⟨o, member, same, by rw [Output.package?_of_lines? written, belongs], written⟩

def files (package : String) (os : List Output) : List (List String) :=
  (os.filter fun o => o.package? == some package).filterMap Output.lines?

theorem files_append (package : String) (os more : List Output) :
    files package (os ++ more) = files package os ++ files package more := by
  rw [files, List.filter_append, List.filterMap_append, files, files]

theorem files_of_package {own : String} (belong : ∀ o ∈ os, o.package? = some own) (package : String) :
    files package os = if own = package then os.filterMap Output.lines? else [] := by
  rw [files]
  split
  · next same =>
    rw [List.filter_eq_self.mpr fun o member => by rw [belong o member, same, beq_self_eq_true]]
  · next other =>
    rw [List.filter_eq_nil_iff.mpr fun o member => by simpa [belong o member] using other]
    rfl

theorem files_of_none (foreign : ∀ o ∈ os, o.package? = none) (package : String) :
    files package os = [] := by
  rw [files, List.filter_eq_nil_iff.mpr fun o member => by simp [foreign o member]]
  rfl

theorem package?_handlerOutputs {handlers : Section Handler} (member : o ∈ handlerOutputs kind handlers) :
    o.package? = some kind.package := by
  simp only [handlerOutputs, List.mem_flatMap, List.mem_cons, List.not_mem_nil, or_false] at member
  obtain ⟨⟨name, h⟩, _, rfl | rfl⟩ := member
  · exact (Output.package?_of_lines? rfl).trans (Emit.package?_handlerLines kind h)
  · exact (Output.package?_of_lines? rfl).trans (Emit.package?_stubLines kind h)

theorem package?_connectionOutputs (member : o ∈ connectionOutputs spec) :
    o.package? = some "connection" := by
  have connect : Go.package? Emit.connectLines = some "connection" :=
    Emit.package?_cons (by decide : Go.packageClause? "package connection" = some "connection") _
  have cache : Go.package? Emit.cacheLines = some "connection" :=
    Emit.package?_cons (by decide : Go.packageClause? "package connection" = some "connection") _
  simp only [connectionOutputs, List.mem_cons, List.not_mem_nil, or_false] at member
  rcases member with rfl | rfl | rfl
  · exact (Output.package?_of_lines? rfl).trans (Emit.package?_connectionLines spec)
  · exact (Output.package?_of_lines? rfl).trans connect
  · exact (Output.package?_of_lines? rfl).trans cache

theorem files_programOutputs (package : String) (spec : Spec) :
    files package (programOutputs spec) =
      (if "main" = package then [Emit.programLines spec] else []) ++
        if "server" = package then [Emit.serverLines spec] else [] := by
  have main : ∀ o ∈ (programOutputs spec).take 1, o.package? = some "main" := by
    simp only [programOutputs, List.take_succ_cons, List.take_zero, List.forall_mem_singleton]
    exact (Output.package?_of_lines? rfl).trans (Emit.package?_programLines spec)
  have server : ∀ o ∈ (programOutputs spec).drop 1, o.package? = some "server" := by
    simp only [programOutputs, List.drop_one, List.tail_cons, List.forall_mem_singleton]
    exact (Output.package?_of_lines? rfl).trans (Emit.package?_serverLines spec)
  rw [← List.take_append_drop 1 (programOutputs spec), files_append, files_of_package main,
    files_of_package server]
  rfl

theorem package?_routeOutputs (member : o ∈ routeOutputs spec) : o.package? = some "server" := by
  obtain ⟨⟨name, h⟩, _, rfl⟩ := List.mem_map.mp member
  exact (Output.package?_of_lines? rfl).trans (Emit.package?_routeLines h)

theorem package?_typeOutputs (member : o ∈ typeOutputs spec) : o.package? = some "types" := by
  obtain ⟨⟨name, t⟩, _, rfl⟩ := List.mem_map.mp member
  exact (Output.package?_of_lines? rfl).trans (Emit.package?_typeLines t spec)

theorem package?_buildOutputs (member : o ∈ buildOutputs spec source) : o.package? = none := by
  simp only [buildOutputs, List.mem_cons, List.not_mem_nil, or_false] at member
  rcases member with rfl | rfl | rfl | rfl
  · exact (Output.package?_of_lines? rfl).trans (Emit.package?_imageLines spec)
  · exact (Output.package?_of_lines? rfl).trans (Emit.package?_makefileLines spec)
  · rfl
  · rfl

theorem lines?_handlerOutputs (kind : HandlerKind) (handlers : Section Handler) :
    (handlerOutputs kind handlers).filterMap Output.lines? =
      handlers.values.flatMap fun h => [Emit.handlerLines kind h, Emit.stubLines kind h] := by
  rw [handlerOutputs, List.filterMap_flatMap, Section.values, List.flatMap_map]
  rfl

theorem lines?_routeOutputs (spec : Spec) :
    (routeOutputs spec).filterMap Output.lines? = spec.actions.values.map Emit.routeLines := by
  rw [routeOutputs, List.filterMap_map, Section.values, List.map_map]
  exact congrFun (List.filterMap_eq_map (f := Emit.routeLines ∘ Prod.snd)) spec.actions.entries

theorem lines?_typeOutputs (spec : Spec) :
    (typeOutputs spec).filterMap Output.lines? =
      spec.customTypes.values.map fun t => Emit.typeLines t spec := by
  rw [typeOutputs, List.filterMap_map, Section.values, List.map_map]
  exact congrFun (List.filterMap_eq_map (f := (Emit.typeLines · spec) ∘ Prod.snd))
    spec.customTypes.entries

theorem files_outputs (package : String) (spec : Spec) (source : List UInt8) :
    files package (outputs spec source) =
      (if HandlerKind.action.package = package then (handlerOutputs .action spec.actions).filterMap
        Output.lines? else []) ++
      (if "connection" = package then (connectionOutputs spec).filterMap Output.lines? else []) ++
      (if HandlerKind.trigger.package = package then (handlerOutputs .trigger spec.triggers).filterMap
        Output.lines? else []) ++
      ((if "main" = package then [Emit.programLines spec] else []) ++
        if "server" = package then [Emit.serverLines spec] else []) ++
      (if "server" = package then spec.actions.values.map Emit.routeLines else []) ++
      if "types" = package then spec.customTypes.values.map fun t => Emit.typeLines t spec else [] := by
  rw [outputs, files_append, files_append, files_append, files_append, files_append, files_append,
    files_of_package fun o member => package?_handlerOutputs member,
    files_of_package fun o member => package?_connectionOutputs member,
    files_of_package fun o member => package?_handlerOutputs member, files_programOutputs,
    files_of_package fun o member => package?_routeOutputs member,
    files_of_package fun o member => package?_typeOutputs member,
    files_of_none fun o member => package?_buildOutputs member, List.append_nil, lines?_routeOutputs,
    lines?_typeOutputs]

theorem files_handlers (kind : HandlerKind) (spec : Spec) (source : List UInt8) :
    files kind.package (outputs spec source) =
      (spec.handlers kind).values.flatMap fun h => [Emit.handlerLines kind h, Emit.stubLines kind h] := by
  rw [files_outputs]
  cases kind <;> simp [HandlerKind.package, Spec.handlers, lines?_handlerOutputs]

theorem files_server (spec : Spec) (source : List UInt8) :
    files "server" (outputs spec source) =
      Emit.serverLines spec :: spec.actions.values.map Emit.routeLines := by
  rw [files_outputs]
  simp [HandlerKind.package]

theorem files_connection (spec : Spec) (source : List UInt8) :
    files "connection" (outputs spec source) =
      [Emit.connectionLines spec, Emit.connectLines, Emit.cacheLines] := by
  rw [files_outputs]
  simp only [HandlerKind.package, String.reduceEq, ↓reduceIte, List.append_nil, List.nil_append]
  rfl

theorem files_types (spec : Spec) (source : List UInt8) :
    files "types" (outputs spec source) =
      spec.customTypes.values.map fun t => Emit.typeLines t spec := by
  rw [files_outputs]
  simp [HandlerKind.package]

end Plan

end PluginCompiler
