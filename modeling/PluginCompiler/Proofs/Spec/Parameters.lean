import PluginCompiler.Proofs.Emit.Constants
import PluginCompiler.Proofs.Go.Qualified

/-! The parameters of an enriched spec, wherever they are declared. Each has its identifier from its own
name, both its types from one type, and constants of one line. -/

set_option autoImplicit false

namespace PluginCompiler

open Go (GoType IsLine)
open Naming (IsWord)

/-- What derives from the name and the token of a parameter, given the declared types. -/
structure Parameter.Derived (known : List String) (p : Parameter) : Prop where
  name : p.name = Naming.upperCamel p.rawName
  type : ∃ t : GoType, p.type = t.expression false ∧ p.internalType = t.expression true ∧
    ∀ name, t.custom? = some name → name ∈ known
  literals : ∀ l ∈ p.enumLiterals, IsWord l.name ∧ IsLine l.literal

variable {known : List String} {owner key : String} {p p' : Parameter}

theorem Parameter.Enriched.derived (becomes : Parameter.Enriched known owner key p p') :
    p'.Derived known where
  name := by rw [becomes.name, becomes.rawName]
  type := by
    have outside := becomes.type
    have inside := becomes.internalType
    rw [resolveType] at outside inside
    cases made : GoType.ofToken known p.type with
    | error unknown =>
      rw [made] at outside
      cases outside
    | ok t =>
      rw [made] at outside inside
      exact ⟨t, (Except.ok.inj outside).symm, (Except.ok.inj inside).symm,
        fun _ => GoType.mem_of_ofToken made⟩
  literals l member := by
    obtain ⟨v, _, expresses⟩ := becomes.expresses member
    exact ⟨becomes.isWord_name member, Emit.isLine_of_clean (Json.clean_compact expresses.text)⟩

namespace Parameter.Derived

theorem isWord_name (derived : p.Derived known) : IsWord p.name := by
  rw [derived.name]
  exact Naming.isWord_upperCamel _

theorem isTypeChar (derived : p.Derived known) : ∀ c ∈ p.type.toList, GoType.isTypeChar c = true := by
  obtain ⟨t, outside, _⟩ := derived.type
  rw [outside]
  exact GoType.isTypeChar_of_mem_expression

theorem isTypeChar_internal (derived : p.Derived known) :
    ∀ c ∈ p.internalType.toList, GoType.isTypeChar c = true := by
  obtain ⟨t, _, inside, _⟩ := derived.type
  rw [inside]
  exact GoType.isTypeChar_of_mem_expression

theorem mentions_time (derived : p.Derived known) :
    (Go.mentions "time.Time" p.type = true ↔ Go.base p.type = "time.Time") ∧
      (Go.mentions "time.Time" p.internalType = true ↔ Go.base p.internalType = "time.Time") := by
  obtain ⟨t, outside, inside, _⟩ := derived.type
  rw [outside, inside, GoType.mentions_time, GoType.mentions_time, GoType.base_eq_time_iff,
    GoType.base_eq_time_iff]
  exact ⟨Iff.rfl, Iff.rfl⟩

theorem mentions_types (derived : p.Derived known) :
    Go.mentions (GoType.typesPackage ++ ".") p.type = true ↔
      ∃ name, Go.qualified? GoType.typesPackage p.type = some name := by
  obtain ⟨t, outside, _⟩ := derived.type
  rw [outside, GoType.mentions_types, GoType.qualified?_expression, ← Option.isSome_iff_exists,
    Option.isSome_map]

theorem mentions_types_internal (derived : p.Derived known) :
    Go.mentions (GoType.typesPackage ++ ".") p.internalType = false := by
  obtain ⟨t, _, inside, _⟩ := derived.type
  rw [inside, GoType.mentions_types_internal]

end Parameter.Derived

def Handler.parameters (h : Handler) : List Parameter := h.input.values ++ h.output.values

def Spec.parameters (spec : Spec) : List Parameter :=
  spec.connection.values ++ spec.actions.values.flatMap Handler.parameters ++
    spec.triggers.values.flatMap Handler.parameters ++
    spec.customTypes.values.flatMap CustomType.sortedFields

namespace Spec

variable {spec enriched : Spec}

theorem mem_parameters : p ∈ spec.parameters ↔ p ∈ spec.connection.values ∨
    (∃ kind, ∃ h ∈ (spec.handlers kind).values, p ∈ h.parameters) ∨
    ∃ t ∈ spec.customTypes.values, p ∈ t.sortedFields := by
  have handlers : (∃ kind, ∃ h ∈ (spec.handlers kind).values, p ∈ h.parameters) ↔
      p ∈ spec.actions.values.flatMap Handler.parameters ∨
        p ∈ spec.triggers.values.flatMap Handler.parameters := by
    simp only [List.mem_flatMap]
    constructor
    · rintro ⟨kind | kind, inside⟩
      · exact .inl inside
      · exact .inr inside
    · rintro (inside | inside)
      · exact ⟨.action, inside⟩
      · exact ⟨.trigger, inside⟩
  simp only [parameters, List.mem_append, handlers, List.mem_flatMap, or_assoc]

theorem mem_parameters_of_connection (member : p ∈ spec.connection.values) : p ∈ spec.parameters :=
  mem_parameters.mpr (.inl member)

theorem mem_parameters_of_handler {kind : HandlerKind} {h : Handler}
    (handler : h ∈ (spec.handlers kind).values) (member : p ∈ h.parameters) : p ∈ spec.parameters :=
  mem_parameters.mpr (.inr (.inl ⟨kind, h, handler, member⟩))

theorem mem_parameters_of_type {t : CustomType} (type : t ∈ spec.customTypes.values)
    (member : p ∈ t.sortedFields) : p ∈ spec.parameters :=
  mem_parameters.mpr (.inr (.inr ⟨t, type, member⟩))

theorem enriched_parameter_of_ok (ok : spec.enrich = .ok enriched) (member : p ∈ enriched.parameters) :
    ∃ owner raw, Parameter.Enriched spec.rawTypes.names owner p.rawName raw p := by
  -- Every parameter stands in a section that was enriched as one.
  have of_section {owner : String} {s s' : Section Parameter}
      (becomes : Section.Enriched spec.rawTypes.names owner s s') (inside : p ∈ s'.values) :
      ∃ owner raw, Parameter.Enriched spec.rawTypes.names owner p.rawName raw p := by
    obtain ⟨raw, own⟩ := becomes.of_mem inside
    exact ⟨owner, raw, own⟩
  rcases mem_parameters.mp member with inside | ⟨kind, h, handler, own⟩ | ⟨t, type, own⟩
  · exact of_section (enriched_of_ok ok).connection inside
  · obtain ⟨⟨key, h⟩, entry, rfl⟩ := List.mem_map.mp handler
    obtain ⟨_, _, becomes⟩ := enriched_handler_of_ok ok entry
    rcases List.mem_append.mp own with input | output
    · exact of_section becomes.input input
    · exact of_section becomes.output output
  · obtain ⟨⟨key, t⟩, entry, rfl⟩ := List.mem_map.mp type
    obtain ⟨_, _, sorted, _, _, becomes⟩ := enriched_type_of_ok ok entry
    rw [sorted, (sortFields_perm _).mem_iff] at own
    exact of_section becomes own

theorem derived_parameter_of_ok (ok : spec.enrich = .ok enriched) (member : p ∈ enriched.parameters) :
    p.Derived spec.rawTypes.names := by
  obtain ⟨_, _, becomes⟩ := enriched_parameter_of_ok ok member
  exact becomes.derived

theorem clean_literal_of_ok (ok : spec.enrich = .ok enriched) (member : p ∈ enriched.parameters)
    {l : EnumLiteral} (allowed : l ∈ p.enumLiterals) : Json.Clean l.literal.toList := by
  obtain ⟨_, _, becomes⟩ := enriched_parameter_of_ok ok member
  obtain ⟨_, _, expresses⟩ := becomes.expresses allowed
  exact Json.clean_compact expresses.text

end Spec

end PluginCompiler
