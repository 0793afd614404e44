import PluginCompiler.Proofs.Emit.Bodies
import PluginCompiler.Proofs.Plan.Plain

/-! What the planned files of handlers and of the connection declare. Read back line by line, a rendered
file has every parameter of its sections once, in the order of their names, and every allowed value. -/

set_option autoImplicit false

namespace PluginCompiler

open Naming (IsWord upperCamel)

/-- Parameters under the names `keys`, in their order. Each has its identifier, and a constant for each of
its allowed values in their order. -/
structure ParametersFor (keys : List String) (params : List Parameter) : Prop where
  rawNames : params.map Parameter.rawName = keys
  identifiers : params.map Parameter.name = keys.map upperCamel
  literals : ∀ p ∈ params, List.Forall₂ (EnumLiteral.Expresses p.name) p.enum p.enumLiterals

/-- A section of parameters in the order of their names. None of them is lost. -/
structure Section.Kept (s s' : Section Parameter) : Prop where
  ordered : Ordered s s'
  parameters : ParametersFor s'.names s'.values

theorem Section.Enriched.parametersFor {known : List String} {owner : String} {s s' : Section Parameter}
    (becomes : Section.Enriched known owner s s') : ParametersFor s'.names s'.values where
  rawNames := becomes.rawNames
  identifiers := by
    rw [Section.values, Section.names, List.map_map, List.map_map]
    apply List.map_congr_left
    rintro ⟨name, p'⟩ entry
    obtain ⟨p, _, own⟩ := becomes.exists_of_mem entry
    exact own.name
  literals p' member := by
    obtain ⟨p, own⟩ := becomes.of_mem member
    have same : p'.enum = p.enum := by rw [own.rest]
    rw [own.name, same]
    exact (literalsOf_eq_ok.mp own.enumLiterals).1

theorem Section.Enriched.kept {known : List String} {owner : String} {s s' : Section Parameter}
    (becomes : Section.Enriched known owner s.sorted s') : s.Kept s' :=
  ⟨(Section.ordered_sorted s).along becomes, becomes.parametersFor⟩

namespace Plan

/-- A planned file that is made from a template, with what its lines show when it is rendered and read. -/
def Shows (os : List Output) (path : Path) (t : Template) (context : Context) (P : List String → Prop) :
    Prop :=
  ∃ o ∈ os, o.path = path ∧ o.body = .template t context ∧ ∃ ls, o.ReadsAs ls ∧ P ls

/-- The files of handlers and of the connection have all parameters of their sections. -/
structure Bodies (spec enriched : Spec) (os : List Output) : Prop where
  handlers : ∀ kind, Section.Ordered (spec.handlers kind) (enriched.handlers kind) ∧
    ∀ e ∈ (enriched.handlers kind).entries, ∃ raw, (e.1, raw) ∈ (spec.handlers kind).entries ∧
      raw.input.Kept e.2.input ∧ raw.output.Kept e.2.output ∧
      Shows os (declarationPath kind e.1) (.handler kind) { handler := some e.2 }
        (Emit.Declares [(e.2.name ++ "Input", e.2.input), (e.2.name ++ kind.outputSuffix, e.2.output)])
  connection : spec.connection.Kept enriched.connection ∧
    Shows os (inDirectory ["connection"] "connection.go") .connection { spec := some enriched }
      (Emit.Declares [("Data", enriched.connection)])

end Plan

namespace Spec

variable {spec enriched : Spec} {source : List UInt8} {path : Path} {policy : WritePolicy} {t : Template}
  {context : Context} {ls : List String} {kind : HandlerKind} {key : String} {h : Handler}

theorem shows_of_goFile (ok : spec.enrich = .ok enriched) (breakless : enriched.Breakless)
    (source : List UInt8) (file : Plan.GoFile enriched path policy t context)
    (written : t.lines context = .ok ls) {P : List String → Prop} (holds : P ls) :
    Plan.Shows (Plan.outputs enriched source) path t context P := by
  obtain ⟨o, member, same, _, body⟩ := Plan.exists_of_goFile source file
  exact ⟨o, member, same, body, ls, readsAs_of_goFile ok breakless file written body, holds⟩

theorem readable_of_derived {known : List String} {p : Parameter} (derived : p.Derived known) :
    IsWord p.name ∧ ' ' ∉ p.type.toList :=
  ⟨derived.isWord_name, not_mem_of_typeChars derived.isTypeChar (by decide)⟩

theorem shows_handler_of_ok (ok : spec.enrich = .ok enriched) (breakless : enriched.Breakless)
    (source : List UInt8) (entry : (key, h) ∈ (enriched.handlers kind).entries) :
    Plan.Shows (Plan.outputs enriched source) (Plan.declarationPath kind key) (.handler kind)
      { handler := some h }
      (Emit.Declares [(h.name ++ "Input", h.input), (h.name ++ kind.outputSuffix, h.output)]) := by
  have listed : h ∈ (enriched.handlers kind).values := List.mem_map_of_mem entry
  have derived (p : Parameter) (member : p ∈ h.parameters) : p.Derived spec.rawTypes.names :=
    derived_parameter_of_ok ok (mem_parameters_of_handler listed member)
  exact shows_of_goFile ok breakless source (.declaration entry) rfl <|
    Emit.declares_handlerLines kind (handler_of_ok ok listed).1
      (fun p member => readable_of_derived (derived p member))
      fun p member l literal => ((derived p member).literals l literal).1

theorem shows_connection_of_ok (ok : spec.enrich = .ok enriched) (breakless : enriched.Breakless)
    (source : List UInt8) :
    Plan.Shows (Plan.outputs enriched source) (Plan.inDirectory ["connection"] "connection.go") .connection
      { spec := some enriched } (Emit.Declares [("Data", enriched.connection)]) := by
  have derived (p : Parameter) (member : p ∈ enriched.connection.values) :
      p.Derived spec.rawTypes.names :=
    derived_parameter_of_ok ok (mem_parameters_of_connection member)
  exact shows_of_goFile ok breakless source .connection rfl <|
    Emit.declares_connectionLines (fun p member => readable_of_derived (derived p member))
      fun p member l literal => ((derived p member).literals l literal).1

/-- No rendered file of a handler or of the connection loses or repeats a parameter or an allowed
value. -/
theorem bodies_of_ok (ok : spec.enrich = .ok enriched) (breakless : enriched.Breakless)
    (source : List UInt8) : Plan.Bodies spec enriched (Plan.outputs enriched source) where
  handlers kind := by
    refine ⟨ordered_handlers_of_ok ok kind, ?_⟩
    rintro ⟨key, h⟩ entry
    obtain ⟨raw, listed, becomes⟩ := enriched_handler_of_ok ok entry
    exact ⟨raw, listed, becomes.input.kept, becomes.output.kept,
      shows_handler_of_ok ok breakless source entry⟩
  connection := ⟨(enriched_of_ok ok).connection.kept, shows_connection_of_ok ok breakless source⟩

def desk : Spec where
  name := "desk"
  packageRoot := "acme/desk"
  connection := ⟨[("host", { type := "string", required := true, description := some "Name of\nthe host" })],
    by decide⟩
  actions :=
    ⟨[("open", { input := ⟨[("level", { type := "string", enum := [.text "low", .text "high"] }),
                            ("body", { type := "string", nullable := true })], by decide⟩
                 output := ⟨[("made", { type := "ticket", required := true })], by decide⟩ })], by decide⟩
  triggers := ⟨[("tick", {})], by decide⟩
  rawTypes :=
    ⟨[("ticket", ⟨[("title", { type := "string", required := true, description := some "What it is" }),
        ("base", { type := "base", embed := true, enum := [.text "a"] }),
        ("due", { type := "date", nullable := true, enum := [.null] })], by decide⟩),
      ("base", ⟨[("id", { type := "int" })], by decide⟩)], by decide⟩

def deskBase : Section Parameter :=
  ⟨[("id", { rawName := "id", name := "Id", type := "int", internalType := "int" })], by decide⟩

def deskTitle : Parameter :=
  { rawName := "title", name := "Title", type := "string", internalType := "string", required := true,
    description := some "What it is" }

def deskEmbedded : Parameter :=
  { rawName := "base", name := "Base", type := "types.Base", internalType := "Base", embed := true,
    enum := [.text "a"], enumLiterals := [⟨"BaseA", "\"a\""⟩] }

def deskDue : Parameter :=
  { rawName := "due", name := "Due", type := "time.Time", internalType := "time.Time", nullable := true,
    enum := [.null], enumLiterals := [⟨"DueNull", "null"⟩] }

def deskTicket : Section Parameter :=
  ⟨[("title", deskTitle), ("base", deskEmbedded), ("due", deskDue)], by decide⟩

def deskOpen : Handler where
  rawName := "open"
  name := "Open"
  packageRoot := "acme/desk"
  input :=
    ⟨[("body", { rawName := "body", name := "Body", type := "string", internalType := "string",
                 nullable := true }),
      ("level", { rawName := "level", name := "Level", type := "string", internalType := "string",
                  enum := [.text "low", .text "high"],
                  enumLiterals := [⟨"LevelLow", "\"low\""⟩, ⟨"LevelHigh", "\"high\""⟩] })],
      by decide⟩
  output :=
    ⟨[("made", { rawName := "made", name := "Made", type := "types.Ticket", internalType := "Ticket",
                 required := true })], by decide⟩

def deskEnriched : Spec :=
  { desk with
    connection :=
      ⟨[("host", { rawName := "host", name := "Host", type := "string", internalType := "string",
                   required := true, description := some "Name of\nthe host" })], by decide⟩
    actions := ⟨[("open", deskOpen)], by decide⟩
    triggers := ⟨[("tick", { rawName := "tick", name := "Tick", packageRoot := "acme/desk" })], by decide⟩
    rawTypes := ⟨[("base", deskBase), ("ticket", deskTicket)], by decide⟩
    customTypes :=
      ⟨[("base", ⟨"base", "Base", deskBase, deskBase.values⟩),
        ("ticket", ⟨"ticket", "Ticket", deskTicket, [deskEmbedded, deskTitle, deskDue]⟩)], by decide⟩
    connectionKey := "c.Host"
    http := ⟨10001, 2, 2⟩ }

theorem enrich_desk : desk.enrich = .ok deskEnriched := rfl

theorem breakless_desk : deskEnriched.Breakless :=
  ⟨by decide, by decide, by decide, by decide, by decide +kernel⟩

theorem bodies_of_ok_desk :
    desk.enrich = .ok deskEnriched ∧ deskEnriched.Breakless ∧
      Plan.Bodies desk deskEnriched (Plan.outputs deskEnriched []) :=
  ⟨enrich_desk, breakless_desk, bodies_of_ok enrich_desk breakless_desk []⟩

end Spec

end PluginCompiler
