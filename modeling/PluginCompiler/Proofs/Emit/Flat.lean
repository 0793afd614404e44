import PluginCompiler.Proofs.Emit.Lines
import PluginCompiler.Proofs.Go.Literal
import PluginCompiler.Proofs.Spec.Parameters

/-! Files of generated code without breaks in what is copied into them. Every line that is written is a
line of the text. -/

set_option autoImplicit false

namespace PluginCompiler

open Go (IsLine)
open Naming (IsWord)

variable {known : List String} {p : Parameter} {h : Handler} {spec : Spec} {start : String}

namespace Emit

structure Flat (p : Parameter) : Prop where
  derived : ∃ known, p.Derived known
  own : IsLine p.rawName

theorem isLine_of_typeChars {type : String} (typed : ∀ c ∈ type.toList, Go.GoType.isTypeChar c = true) :
    IsLine type := by
  intro member
  exact absurd (typed _ member) (by decide)

theorem isLine_repr (n : Int) : IsLine n.repr := isLine_of_clean (Json.clean_toString n)

theorem isLine_quote (s : String) : IsLine (Go.quote s) := isLine_of_clean (Json.clean_quote s)

@[simp] theorem paragraphs_singleton (part : List String) : paragraphs [part] = indent part := by
  simp [paragraphs, List.intercalate_singleton]

@[simp] theorem paragraphs_cons_cons (part next : List String) (rest : List (List String)) :
    paragraphs (part :: next :: rest) = indent part ++ "" :: paragraphs (next :: rest) := by
  simp [paragraphs, List.intercalate_cons_cons]

theorem single_fields {s : Section Parameter} (flat : ∀ p ∈ s.values, Flat p) : Each IsLine (fields s) := by
  refine each_flatMap.mpr fun p member => ?_
  obtain ⟨⟨known, derived⟩, own⟩ := flat p member
  exact single_field own derived.isWord_name (isLine_of_typeChars derived.isTypeChar)

theorem single_parameterConstants {params : List Parameter} {owner : Parameter → String}
    (word : IsWord start) (flat : ∀ p ∈ params, Flat p) (single : ∀ p ∈ params, IsLine (owner p)) :
    Each IsLine (params.flatMap fun p => constants start (owner p) p.enumLiterals) := by
  refine each_flatMap.mpr fun p member => ?_
  obtain ⟨⟨known, derived⟩, own⟩ := flat p member
  exact single_constants (single p member) (fun l literal => word.append (derived.literals l literal).1)
    fun l literal => (derived.literals l literal).2

theorem single_sectionConstants {s : Section Parameter} (word : IsWord start)
    (flat : ∀ p ∈ s.values, Flat p) : Each IsLine (sectionConstants start s) :=
  single_parameterConstants word flat fun p member => (flat p member).own

theorem isLine_method (kind : HandlerKind) {signature : String} (name : IsLine h.name) :
    IsLine (method kind h signature) ↔ IsLine signature := by
  have receiver : IsLine kind.receiver := by cases kind <;> exact Go.isLine_literal rfl
  have suffix : IsLine kind.typeSuffix := by cases kind <;> exact Go.isLine_literal rfl
  have func : IsLine "func (" := Go.isLine_literal rfl
  have star : IsLine " *" := Go.isLine_literal rfl
  have closing : IsLine ") " := Go.isLine_literal rfl
  simp [method, receiver, suffix, name, func, star, closing]

structure FlatHandler (h : Handler) : Prop where
  name : IsWord h.name
  own : IsLine h.rawName
  packageRoot : IsLine h.packageRoot
  parameters : ∀ p ∈ h.parameters, Flat p

theorem single_handlerLines (kind : HandlerKind) (flat : FlatHandler h) :
    Each IsLine (handlerLines kind h) := by
  have input : ∀ p ∈ h.input.values, Flat p := fun p member =>
    flat.parameters p (List.mem_append_left _ member)
  have output : ∀ p ∈ h.output.values, Flat p := fun p member =>
    flat.parameters p (List.mem_append_right _ member)
  have name := Go.isLine_of_isWord flat.name
  have word : IsLine kind.word := by cases kind <;> exact Go.isLine_literal rfl
  have package : IsLine kind.package := by cases kind <;> exact Go.isLine_literal rfl
  have suffix : IsWord kind.outputSuffix := by cases kind <;> decide
  have typeSuffix : IsLine kind.typeSuffix := by cases kind <;> exact Go.isLine_literal rfl
  have note : IsLine (kind.outputNote h) := by
    cases kind
    all_goals
      simp only [HandlerKind.outputNote, Go.isLine_append, name, flat.own, and_true]
      and_intros <;> exact Go.isLine_literal rfl
  have state : Each IsLine (handlerState kind h) := by
    cases kind
    all_goals
      simp only [handlerState, each_cons, each_nil, Go.isLine_append, name, and_true]
      and_intros <;> exact Go.isLine_literal rfl
  have imports : Each IsLine (handlerImports h) := by
    simp only [handlerImports, each_append, single_typeImports flat.packageRoot, each_cons,
      each_nil, Go.isLine_append, flat.packageRoot, true_and, and_true]
    exact Go.isLine_literal rfl
  have constants : Each IsLine (handlerConstants kind h) :=
    each_append.mpr ⟨single_sectionConstants (flat.name.append (by decide)) input,
      single_sectionConstants (flat.name.append suffix) output⟩
  -- A description may have breaks, but a comment joins its words.
  have purpose : IsLine (Go.comment (orElse ("runs the " ++ h.rawName ++ " " ++ kind.word)
      h.description)) := isLine_comment _
  unfold handlerLines
  simp only [each_append, each_cons, each_nil, single_braces, structType, Go.isLine_append,
    isLine_method kind name, name, word, package, note, flat.own, isLine_generatedFrom, isLine_quoted,
    single_importBlock imports, single_fields input, single_fields output,
    single_constantBlock, constants, state, Go.isLine_of_isWord suffix, typeSuffix, purpose,
    isLine_quote, Go.quoteOptional, true_and, and_true]
  and_intros <;> exact Go.isLine_literal rfl

theorem single_ownedNote : Each IsLine ownedNote := by
  simp only [ownedNote, each_cons, each_nil, and_true]
  and_intros <;> exact Go.isLine_literal rfl

theorem single_stubLines (kind : HandlerKind) (flat : FlatHandler h) : Each IsLine (stubLines kind h) := by
  have name := Go.isLine_of_isWord flat.name
  cases kind
  all_goals
    simp only [stubLines, actionStubLines, triggerStubLines, single_ownedNote, each_append, each_cons,
      each_nil, single_braces, isLine_method _ name, Go.isLine_append, name, flat.own, true_and,
      and_true]
    and_intros <;> exact Go.isLine_literal rfl

theorem single_routeLines (flat : FlatHandler h) : Each IsLine (routeLines h) := by
  have name := Go.isLine_of_isWord flat.name
  unfold routeLines
  simp only [each_append, each_cons, each_nil, single_braces, single_indent, parensOf,
    paragraphs_singleton, paragraphs_cons_cons, Go.isLine_append, name, flat.own, flat.packageRoot,
    isLine_generatedFrom, isLine_quoted, isLine_rawQuoted, httpError, true_and, and_true]
  and_intros <;> exact Go.isLine_literal rfl

theorem single_actionCase (name : IsLine h.name) : Each IsLine (actionCase h) := by
  simp only [actionCase, decodeStep, returnOnError, each_append, each_cons, each_nil,
    single_indent, single_braces, Go.isLine_append, isLine_quote, name, and_true]
  and_intros <;> exact Go.isLine_literal rfl

theorem single_triggerCase (name : IsLine h.name) : Each IsLine (triggerCase h) := by
  simp only [triggerCase, decodeStep, each_append, each_cons, each_nil, single_indent,
    single_braces, Go.isLine_append, isLine_quote, name, and_true]
  and_intros <;> exact Go.isLine_literal rfl

theorem single_programImports (root : IsLine spec.packageRoot) : Each IsLine (programImports spec) := by
  have entries : Each IsLine [quoted (spec.packageRoot ++ "/actions"),
      quoted (spec.packageRoot ++ "/connection"),
      "server " ++ quoted (spec.packageRoot ++ "/server/http"),
      quoted (spec.packageRoot ++ "/triggers")] := by
    simp only [each_cons, each_nil, isLine_quoted, Go.isLine_append, root, true_and, and_true]
    and_intros <;> exact Go.isLine_literal rfl
  simp only [each_cons] at entries
  rw [programImports, each_append, each_append]
  refine ⟨⟨?_, by simp [entries]⟩, ?_⟩ <;> split <;> simp [entries]

theorem single_messageTypes : Each IsLine messageTypes := by
  simp only [messageTypes, structType, each_append, each_cons, each_nil, single_braces,
    Go.isLine_append, isLine_rawQuoted, and_true]
  and_intros <;> exact Go.isLine_literal rfl

theorem single_entryFunction (spec : Spec) : Each IsLine (entryFunction spec) := by
  simp only [entryFunction, bracesOf, each_append, each_cons, each_nil, single_braces,
    paragraphs_singleton, paragraphs_cons_cons, single_indent, Go.isLine_append,
    Int.toString_eq_repr, isLine_repr, and_true]
  and_intros <;> exact Go.isLine_literal rfl

theorem single_dispatchFunction (words : ∀ kind, ∀ h ∈ (spec.handlers kind).values, IsWord h.name) :
    Each IsLine (dispatchFunction spec) := by
  have actions : Each IsLine (spec.actions.values.flatMap actionCase) :=
    each_flatMap.mpr fun h member => single_actionCase (Go.isLine_of_isWord (words .action h member))
  have triggers : Each IsLine (spec.triggers.values.flatMap triggerCase) :=
    each_flatMap.mpr fun h member => single_triggerCase (Go.isLine_of_isWord (words .trigger h member))
  simp only [dispatchFunction, bracesOf, switch, each_append, each_cons, each_nil,
    single_braces, paragraphs_singleton, paragraphs_cons_cons, single_indent, Go.isLine_append,
    actions, triggers, and_true]
  and_intros <;> exact Go.isLine_literal rfl

theorem single_decodeFunction : Each IsLine decodeFunction := by
  simp only [decodeFunction, each_append, each_cons, each_nil, single_braces, and_true]
  and_intros <;> exact Go.isLine_literal rfl

theorem single_programLines (name : IsLine spec.name) (root : IsLine spec.packageRoot)
    (words : ∀ kind, ∀ h ∈ (spec.handlers kind).values, IsWord h.name) :
    Each IsLine (programLines spec) := by
  unfold programLines
  simp only [each_append, each_cons, each_nil, parensOf, paragraphs_singleton,
    paragraphs_cons_cons, single_indent, List.map_cons, List.map_nil, isLine_quoted, isLine_generatedFrom,
    Go.isLine_append, name, single_programImports root, single_messageTypes, single_entryFunction,
    single_dispatchFunction words, single_decodeFunction, true_and, and_true]
  and_intros <;> exact Go.isLine_literal rfl

theorem single_serverLines (name : IsLine spec.name)
    (routes : ∀ h ∈ spec.actions.values, IsWord h.name ∧ IsLine h.rawName) :
    Each IsLine (serverLines spec) := by
  have registered : Each IsLine (spec.actions.values.map route) := by
    intro l member
    obtain ⟨h, inside, rfl⟩ := List.mem_map.mp member
    obtain ⟨word, own⟩ := routes h inside
    unfold route
    simp only [Go.isLine_append, own, Go.isLine_of_isWord word, and_true]
    and_intros <;> exact Go.isLine_literal rfl
  unfold serverLines
  simp only [each_append, each_cons, each_nil, single_braces, single_parens,
    single_indent, isLine_generatedFrom, isLine_quoted, Go.isLine_append, name, registered, Int.toString_eq_repr,
    isLine_repr, true_and, and_true]
  and_intros <;> exact Go.isLine_literal rfl

theorem single_typeLines {t : CustomType} (word : IsWord t.name) (own : IsLine t.rawName)
    (name : IsLine spec.name) (root : IsLine spec.packageRoot)
    (flat : ∀ p ∈ t.sortedFields, Flat p) : Each IsLine (typeLines t spec) := by
  have fields : Each IsLine (t.sortedFields.flatMap typeField) := by
    refine each_flatMap.mpr fun p member => ?_
    obtain ⟨⟨known, derived⟩, own⟩ := flat p member
    have typed := isLine_of_typeChars derived.isTypeChar_internal
    rw [typeField]
    split
    · exact each_cons.mpr ⟨typed, each_nil⟩
    · exact single_field own derived.isWord_name typed
  have constants : Each IsLine (typeConstants t) := by
    refine single_parameterConstants word flat fun p member => ?_
    rw [Go.isLine_append, Go.isLine_append]
    exact ⟨⟨own, Go.isLine_literal rfl⟩, (flat p member).own⟩
  have imports : Each IsLine (typeImports t spec) := single_typeImports root
  unfold typeLines
  simp only [each_append, each_cons, each_nil, single_braces, structType, isLine_generatedFrom,
    isLine_quoted, Go.isLine_append, own, name, Go.isLine_of_isWord word, single_importBlock imports, fields,
    single_constantBlock, constants, true_and, and_true]
  and_intros <;> exact Go.isLine_literal rfl

theorem single_connectLines : Each IsLine connectLines := by
  simp only [connectLines, single_ownedNote, each_append, each_cons, each_nil, single_braces,
    and_true]
  and_intros <;> exact Go.isLine_literal rfl

theorem single_cacheLines : Each IsLine cacheLines := by
  simp only [cacheLines, single_ownedNote, each_append, each_cons, each_nil, single_braces,
    single_parens, and_true]
  and_intros <;> exact Go.isLine_literal rfl

end Emit

end PluginCompiler
