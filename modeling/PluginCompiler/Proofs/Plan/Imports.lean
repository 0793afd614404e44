import PluginCompiler.Proofs.Emit.Imports
import PluginCompiler.Proofs.Plan.Plain

/-! What the planned files with records import. As they are written, each imports exactly the packages
that its fields are built on; they are read that way too if no text that is copied into them has a
break. -/

set_option autoImplicit false

namespace PluginCompiler

namespace Plan

/-- Every planned file with records imports what the fields of its records need, and nothing else. Files
of handlers also refer to the connection. Inside their package custom types are never qualified. -/
structure ImportsFit (spec : Spec) (os : List Output) : Prop where
  handlers : ∀ kind, ∀ e ∈ (spec.handlers kind).entries, ∃ ls,
    Provides os (declarationPath kind e.1) kind.package ls ∧
      Go.ImportsFit spec.packageRoot [spec.packageRoot ++ "/connection"]
        (Go.declaredFields (e.2.name ++ "Input") ls ++
          Go.declaredFields (e.2.name ++ kind.outputSuffix) ls) ls
  connection : ∃ ls, Provides os (inDirectory ["connection"] "connection.go") "connection" ls ∧
    Go.ImportsFit spec.packageRoot [] (Go.declaredFields "Data" ls) ls
  types : ∀ e ∈ spec.customTypes.entries, ∃ ls, Provides os (typePath e.1) "types" ls ∧
    Go.ImportsFit spec.packageRoot [] (Go.declaredMembers e.2.name ls) ls ∧
    ∀ f ∈ Go.declaredMembers e.2.name ls, Go.qualified? Go.GoType.typesPackage f.type = none

end Plan

namespace Spec

variable {spec enriched : Spec} {source : List UInt8} {os : List Output}

theorem importsFit_of_outputs (ok : spec.enrich = .ok enriched) (source : List UInt8) :
    Plan.ImportsFit enriched (Plan.outputs enriched source) where
  handlers kind := by
    rintro ⟨key, h⟩ entry
    obtain ⟨_, _, becomes⟩ := enriched_handler_of_ok ok entry
    have root : h.packageRoot = enriched.packageRoot := by rw [becomes.packageRoot, (enriched_of_ok ok).rest]
    have derived : ∀ p ∈ h.parameters, p.Derived spec.rawTypes.names := fun p member =>
      derived_parameter_of_ok ok (mem_parameters_of_handler (List.mem_map_of_mem entry) member)
    refine ⟨Emit.handlerLines kind h, Plan.provides_of_goFile source (.declaration entry) rfl
      (Emit.package?_handlerLines kind h), ?_⟩
    rw [← root]
    exact Emit.importsFit_handlerLines kind derived
  connection :=
    ⟨Emit.connectionLines enriched, Plan.provides_of_goFile source .connection rfl
      (Emit.package?_connectionLines enriched), Emit.importsFit_connectionLines fun p member =>
        derived_parameter_of_ok ok (mem_parameters_of_connection member)⟩
  types := by
    rintro ⟨key, t⟩ entry
    have derived : ∀ p ∈ t.sortedFields, p.Derived spec.rawTypes.names := fun p member =>
      derived_parameter_of_ok ok (mem_parameters_of_type (List.mem_map_of_mem entry) member)
    exact ⟨Emit.typeLines t enriched, Plan.provides_of_goFile source (.customType entry) rfl
      (Emit.package?_typeLines t enriched), Emit.importsFit_typeLines enriched derived⟩

/-- The imports of planned files are what their fields are built on. -/
theorem imports_of_plan (ok : spec.enrich = .ok enriched) (planned : enriched.plan source = .ok os) :
    Plan.ImportsFit enriched os ∧
      (enriched.Plain → ∀ o ∈ os, o.isGo = true → ∀ ls, o.lines? = some ls → o.ReadsAs ls) := by
  have same := (plan_eq_ok.mp planned).1
  subst same
  exact ⟨importsFit_of_outputs ok source, fun plain o member go ls => readsAs_of_breakless ok plain.toBreakless member go⟩

theorem imports_of_plan_messaging :
    messaging.enrich = .ok messagingEnriched ∧
      messagingEnriched.plan [] = .ok (Plan.outputs messagingEnriched []) ∧
      Plan.ImportsFit messagingEnriched (Plan.outputs messagingEnriched []) ∧ messagingEnriched.Plain ∧
      ∀ o ∈ Plan.outputs messagingEnriched [], o.isGo = true → ∀ ls, o.lines? = some ls →
        o.ReadsAs ls := by
  obtain ⟨fits, reads⟩ := imports_of_plan enrich_messaging plan_messaging
  exact ⟨enrich_messaging, plan_messaging, fits, plain_messaging, reads plain_messaging⟩

/-- A connection whose only parameter has a field of its own in its name. -/
def borrowing : Spec where
  name := "db"
  connection := ⟨[("x\x60\n\tEvil time.Time \x60y", { type := "int" })], by decide⟩

def borrowingEnriched : Spec :=
  { borrowing with
    connection :=
      ⟨[("x\x60\n\tEvil time.Time \x60y",
        { rawName := "x\x60\n\tEvil time.Time \x60y", name := "XEvilTimeTimeY", type := "int",
          internalType := "int" })], by decide⟩
    connectionKey := "\"\""
    http := ⟨10001, 2, 2⟩ }

/-- A field that comes with the name of another one is built on a package that its file does not import. -/
theorem not_imports_fit :
    ¬ ∀ (spec enriched : Spec) (path : Option String) (text : String), spec.enrich = .ok enriched →
      Template.connection.render { spec := some enriched } path = .ok text →
        Go.ImportsFit enriched.packageRoot [] (Go.declaredFields "Data" (Go.lines text))
          (Go.lines text) := by
  intro fits
  have fit := fits borrowing borrowingEnriched none _ rfl
    (Template.render_of_body (Template.connectionBody_lines rfl) none)
  have time := fit.time
  have written : Emit.connectionLines borrowingEnriched =
      linesBefore ++ ("\tXEvilTimeTimeY int \x60json:\"x\x60" ++ "\n" ++
        "\tEvil time.Time \x60y,omitempty\"\x60") :: linesAfter := by decide +kernel
  rw [written, Go.lines_unlines_broken (by decide +kernel)] at time
  exact absurd time (by decide +kernel)

end Spec

end PluginCompiler
