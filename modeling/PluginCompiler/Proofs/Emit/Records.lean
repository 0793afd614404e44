import PluginCompiler.Proofs.Connection.Agreement
import PluginCompiler.Proofs.Emit.Declared
import PluginCompiler.Proofs.Spec.Parameters

/-! The records of generated files read back: the fields of inputs, outputs and custom types. In the
record of a custom type an embedded type stands without a name of its own. -/

set_option autoImplicit false

namespace PluginCompiler

open Naming (IsWord)

namespace Emit

variable {h : Handler} {t : CustomType} {p : Parameter} {name type : String} {body : List String}

theorem not_mem_structType {other : String} (different : other ≠ name) (body : List String) :
    "type " ++ other ++ " struct" ++ " \x7b" ∉ structType name body := by
  rw [structType, Go.braces_eq, List.mem_cons, List.mem_append, List.mem_singleton]
  have own : Go.lead ("type " ++ other ++ " struct" ++ " \x7b") = some 't' := by simp [Go.lead]
  rintro (same | inside | closing)
  · rw [String.append_left_inj, String.append_left_inj, String.append_right_inj] at same
    exact different same
  · rw [Go.lead_of_mem_indent inside] at own
    cases own
  · rw [closing] at own
    cases own

theorem clear_front (kind : HandlerKind) (h : Handler) :
    Each (Go.lead · ≠ some 't')
      ([generatedFrom (quoted h.rawName ++ " " ++ kind.word), "", "package " ++ kind.package] ++
      importBlock (handlerImports h) ++
      ["", "// " ++ h.name ++ "Input are the inputs of the " ++ h.rawName ++ " " ++ kind.word]) :=
  clear_header (by decide) _ _ (lead_package _) (lead_inputNote kind h)

theorem encloses_input (kind : HandlerKind) (h : Handler) :
    Go.Encloses ("type " ++ (h.name ++ "Input") ++ " struct") (fields h.input) (handlerLines kind h) := by
  unfold handlerLines
  -- Nine parts follow the record of the input.
  iterate 9 refine .append ?_
  exact Go.encloses_braces ((clear_front kind h).not_mem (by simp [Go.lead])) _

theorem encloses_output (kind : HandlerKind) (h : Handler) :
    Go.Encloses ("type " ++ (h.name ++ kind.outputSuffix) ++ " struct") (fields h.output)
      (handlerLines kind h) := by
  -- The record of the input comes before, under a name that differs in its end.
  have different : h.name ++ kind.outputSuffix ≠ h.name ++ "Input" := by
    rw [Ne, String.append_right_inj]
    cases kind <;> decide
  have own : Go.lead ("type " ++ (h.name ++ kind.outputSuffix) ++ " struct" ++ " \x7b") = some 't' := by
    simp [Go.lead]
  have note := clear_note (by decide : '/' ≠ 't') (lead_outputNote kind h)
  unfold handlerLines
  iterate 7 refine .append ?_
  refine Go.encloses_braces ?_ _
  rw [List.mem_append, List.mem_append, not_or, not_or]
  exact ⟨⟨(clear_front kind h).not_mem own, not_mem_structType different _⟩, note.not_mem own⟩

theorem declaredFields_handlerLines (kind : HandlerKind)
    (readable : ∀ p ∈ h.parameters, IsWord p.name ∧ ' ' ∉ p.type.toList) :
    Go.declaredFields (h.name ++ "Input") (handlerLines kind h) =
        h.input.values.map (fun p => declared p.type p) ∧
      Go.declaredFields (h.name ++ kind.outputSuffix) (handlerLines kind h) =
        h.output.values.map fun p => declared p.type p := by
  rw [(encloses_input kind h).declaredFields_eq, (encloses_output kind h).declaredFields_eq]
  exact ⟨fields_of_section fun p member => readable p (List.mem_append_left _ member),
    fields_of_section fun p member => readable p (List.mem_append_right _ member)⟩

/-- The field that a parameter is written as in a custom type. An embedded one is named by its type. -/
def declaredMember (p : Parameter) : Go.Field :=
  if p.embed then ⟨Go.unqualified p.internalType, p.internalType, ""⟩ else declared p.internalType p

theorem embedded?_of_mem_field (word : IsWord p.name) {line : String}
    (member : line ∈ indent (field type p)) : Go.embedded? line = none := by
  have comment (text : String) : Go.embedded? ("\t" ++ ("// " ++ p.name ++ " " ++ text)) = none :=
    Go.embedded?_of_blank ['\t', '/', '/'] (p.name ++ " " ++ text).toList (by decide) (by simp)
  have declared : Go.embedded? ("\t" ++ declaration type p) = none := by
    have front : ' ' ∉ '\t' :: p.name.toList := by simp [Go.blank_not_mem word]
    exact Go.embedded?_of_blank _ (pointerMark p ++ type ++ " " ++ (declared type p).tag).toList front
      (by simp [declaration])
  obtain ⟨l, inside, rfl⟩ := List.mem_map.mp member
  rw [field_eq, List.mem_append, List.mem_singleton] at inside
  -- A field is its comment, if it has one, and its declaration; both have a blank in them.
  rcases inside with note | rfl
  · rw [fieldNote] at note
    split at note
    · split at note
      · cases note
      · rw [List.mem_singleton.mp note]
        exact comment _
    · cases note
  · exact declared

theorem members_of_typeField (word : IsWord p.name) (typed : ' ' ∉ p.internalType.toList) :
    (indent (typeField p)).filterMap Go.member? = [declaredMember p] := by
  rw [typeField, declaredMember]
  split
  · rw [indent, List.map_singleton, List.filterMap_cons_some (Go.member?_of_embedded typed),
      List.filterMap_nil]
  · have only : ∀ l ∈ indent (field p.internalType p), Go.member? l = Go.field? l := by
      intro l member
      rw [Go.member?, embedded?_of_mem_field word member, Option.or_none]
    rw [List.filterMap_congr only, fields_of_field word typed]

theorem encloses_members (t : CustomType) (spec : Spec) :
    Go.Encloses ("type " ++ t.name ++ " struct") (t.sortedFields.flatMap typeField)
      (typeLines t spec) := by
  unfold typeLines
  refine .append (Go.encloses_braces (Each.not_mem (c := 't') ?_ (by simp [Go.lead])) _)
  exact clear_header (by decide) _ _ rfl (lead_typeNote t spec)

theorem declaredMembers_typeLines (spec : Spec)
    (readable : ∀ p ∈ t.sortedFields, IsWord p.name ∧ ' ' ∉ p.internalType.toList) :
    Go.declaredMembers t.name (typeLines t spec) = t.sortedFields.map declaredMember := by
  rw [(encloses_members t spec).declaredMembers_eq, indent, List.map_flatMap, List.filterMap_flatMap,
    ← List.flatMap_singleton' (List.map _ _), List.flatMap_map]
  exact List.flatMap_congr fun p member =>
    members_of_typeField (readable p member).1 (readable p member).2

end Emit

end PluginCompiler
