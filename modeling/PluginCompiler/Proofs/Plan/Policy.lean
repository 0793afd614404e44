import PluginCompiler.Proofs.Plan.Listing

/-! Paths that one spec generates once and another one always: the stub of a handler is the declaration
of the handler that is named like the stub. There are no others. -/

set_option autoImplicit false

namespace PluginCompiler

namespace Plan

variable {spec : Spec} {kind : HandlerKind} {name : String} {path : Path}

theorem stubPath_eq_declarationPath (kind : HandlerKind) (name : String) :
    stubPath kind name = declarationPath kind (name ++ "_run") := by
  have ending : "_run.go" = "_run" ++ ".go" := by decide
  rw [stubPath, declarationPath, ending, String.append_assoc]

theorem package_injective {kind' : HandlerKind} (same : kind.package = kind'.package) :
    kind = kind' := by
  revert same
  cases kind <;> cases kind' <;> decide

theorem Listed.always_of_package (slashless : spec.Slashless)
    (listed : Listed spec .always path) {file : String}
    (parts : path.parts = [kind.package, file ++ ".go"]) :
    file ∈ (spec.handlers kind).names := by
  have head : path.parts.head? = some kind.package := by
    rw [parts]
    rfl
  cases listed with
  | @declaration kind' name member =>
    rw [declarationPath_eq _ (slashless name (Spec.mem_declared_of_handler kind' member))] at parts
    simp only [List.cons.injEq, String.append_left_inj, and_true] at parts
    obtain ⟨package, rfl⟩ := parts
    rwa [← package_injective package]
  | @route name member =>
    rw [routePath_eq (slashless name (Spec.mem_declared_of_handler .action member))] at parts
    simp at parts
  | @customType name member =>
    rw [typePath_eq (slashless name (Spec.mem_declared_of_type member))] at head
    revert head
    cases kind <;> simp [HandlerKind.package]
  | _ =>
    exfalso
    revert head
    cases kind <;> decide

theorem Listed.always_of_connection (slashless : spec.Slashless)
    (listed : Listed spec .always path) (head : path.parts.head? = some "connection") :
    path = inDirectory ["connection"] "connection.go" := by
  cases listed with
  | connection => rfl
  | @declaration kind name member =>
    rw [declarationPath_eq _ (slashless name (Spec.mem_declared_of_handler kind member))] at head
    revert head
    cases kind <;> simp [HandlerKind.package]
  | @route name member =>
    rw [routePath_eq (slashless name (Spec.mem_declared_of_handler .action member))] at head
    simp at head
  | @customType name member =>
    rw [typePath_eq (slashless name (Spec.mem_declared_of_type member))] at head
    simp at head
  | _ => exact absurd head (by decide)

/-- A path that one spec generates once is always written for another one exactly if it is the stub of
a handler whose stub's name is declared there. -/
theorem Listed.always_iff (other : Spec) (slashless : spec.Slashless)
    (slashless' : other.Slashless) (listed : Listed spec .once path) :
    Listed other .always path ↔
      ∃ kind name, path = stubPath kind name ∧ name ++ "_run" ∈ (other.handlers kind).names := by
  constructor
  · intro always
    cases listed with
    | @stub kind name member =>
      have whole := slashless name (Spec.mem_declared_of_handler kind member)
      refine ⟨kind, name, rfl, always.always_of_package slashless' ?_⟩
      rw [stubPath_eq kind whole, String.append_assoc]
      rfl
    | connect => exact absurd (always.always_of_connection slashless' (by decide)) (by decide)
    | cache => exact absurd (always.always_of_connection slashless' (by decide)) (by decide)
  · rintro ⟨kind, name, rfl, member⟩
    rw [stubPath_eq_declarationPath]
    exact .declaration member

end Plan

end PluginCompiler
