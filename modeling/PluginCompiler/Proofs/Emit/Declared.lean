import PluginCompiler.Proofs.Emit.Constants
import PluginCompiler.Proofs.Go.Declarations
import PluginCompiler.Template

/-! What generated files declare: the package that they belong to, and the records and functions that
other files can refer to. Only lines at the margin declare anything. -/

set_option autoImplicit false

namespace PluginCompiler.Emit

open Naming (IsWord)

variable {line head name package : String} {ls more body : List String} {h : Handler}

theorem lead_empty : Go.lead "" = none := rfl

theorem lead_package (package : String) : Go.lead ("package " ++ package) = some 'p' := by
  simp [Go.lead]

theorem package?_of_clear (clear : Each (Go.lead · ≠ some 'p') ls) : Go.package? ls = none := by
  induction ls with
  | nil => rfl
  | cons l ls ih =>
    rw [each_cons] at clear
    rw [Go.package?_cons_of_lead clear.1, ih clear.2]

theorem package?_cons (clause : Go.packageClause? line = some package) (ls : List String) :
    Go.package? (line :: ls) = some package := by
  rw [Go.package?, List.findSome?_cons, clause]

theorem package?_generated (clause : Go.packageClause? line = some package) (origin : String)
    (ls : List String) : Go.package? (generatedFrom origin :: "" :: line :: ls) = some package := by
  have comment : Go.lead (generatedFrom origin) ≠ some 'p' := by
    rw [lead_generatedFrom]
    decide
  rw [Go.package?_cons_of_lead comment, Go.package?_cons_of_lead (by decide), package?_cons clause]

theorem package?_handlerLines (kind : HandlerKind) (h : Handler) :
    Go.package? (handlerLines kind h) = some kind.package := by
  have clause : Go.packageClause? ("package " ++ kind.package) = some kind.package := by
    cases kind <;> decide
  simp only [handlerLines, List.append_assoc, List.cons_append]
  exact package?_generated clause _ _

theorem package?_stubLines (kind : HandlerKind) (h : Handler) :
    Go.package? (stubLines kind h) = some kind.package := by
  cases kind with
  | action => exact package?_cons (by decide) _
  | trigger => exact package?_cons (by decide) _

theorem package?_connectionLines (spec : Spec) :
    Go.package? (connectionLines spec) = some "connection" :=
  package?_generated (by decide) _ _

theorem package?_programLines (spec : Spec) : Go.package? (programLines spec) = some "main" :=
  package?_generated (by decide) _ _

theorem package?_serverLines (spec : Spec) : Go.package? (serverLines spec) = some "server" :=
  package?_generated (by decide) _ _

theorem package?_routeLines (h : Handler) : Go.package? (routeLines h) = some "server" :=
  package?_generated (by decide) _ _

theorem package?_typeLines (t : CustomType) (spec : Spec) :
    Go.package? (typeLines t spec) = some "types" :=
  package?_generated (by decide) _ _

theorem package?_imageLines (spec : Spec) : Go.package? (imageLines spec) = none := by
  apply package?_of_clear
  simp only [imageLines, each_cons, each_nil, and_true, String.append_assoc]
  and_intros
  -- Each line is a literal, starts with one, or is empty.
  all_goals first
    | with_reducible exact lead_literal_ne (by decide)
    | with_reducible exact lead_literal_append_ne (by decide)
    | exact lead_empty_ne

theorem package?_makefileLines (spec : Spec) : Go.package? (makefileLines spec) = none := by
  have steps (ls : List String) : Each (Go.lead · ≠ some 'p') (indent ls) := clear_indent (by decide)
  apply package?_of_clear
  simp only [makefileLines, rule, steps, each_append, each_cons, each_nil, and_true]
  and_intros
  all_goals first
    | with_reducible exact lead_literal_ne (by decide)
    | with_reducible exact lead_literal_append_ne (by decide)
    | exact lead_empty_ne

@[simp] theorem declaredRecords_append (ls more : List String) :
    Go.declaredRecords (ls ++ more) = Go.declaredRecords ls ++ Go.declaredRecords more :=
  List.filterMap_append

theorem declaredRecords_of_clear (clear : Each (Go.lead · ≠ some 't') ls) :
    Go.declaredRecords ls = [] := by
  rw [Go.declaredRecords, List.filterMap_eq_nil_iff]
  exact fun l member => Go.recordName?_of_lead (clear l member)

theorem declaredRecords_structType (word : IsWord name) (body : List String) :
    Go.declaredRecords (structType name body) = [name] := by
  have rest : Each (Go.lead · ≠ some 't') (indent body ++ ["\x7d"]) :=
    each_append.mpr ⟨clear_indent (by decide), by simp [Go.lead]⟩
  have own : Go.declaredRecords ["type " ++ name ++ " struct" ++ " \x7b"] = [name] := by
    rw [Go.declaredRecords, List.filterMap_cons_some (Go.recordName?_head (Go.blank_not_mem word)),
      List.filterMap_nil]
  rw [structType, Go.braces_eq, ← List.singleton_append, declaredRecords_append, own,
    declaredRecords_of_clear rest, List.append_nil]

def typeNames (kind : HandlerKind) (name : String) : List String :=
  [name ++ "Input", name ++ kind.outputSuffix, name ++ kind.typeSuffix]

theorem isWord_typeNames (kind : HandlerKind) (word : IsWord name) :
    ∀ type ∈ typeNames kind name, IsWord type := by
  have output : IsWord kind.outputSuffix := by cases kind <;> decide
  have type : IsWord kind.typeSuffix := by cases kind <;> decide
  simp [typeNames, word.append output, word.append type, word.append (by decide : IsWord "Input")]

theorem declaredRecords_handlerLines (kind : HandlerKind) (word : IsWord h.name) :
    Go.declaredRecords (handlerLines kind h) = typeNames kind h.name := by
  obtain ⟨input, output, type⟩ :
      IsWord (h.name ++ "Input") ∧ IsWord (h.name ++ kind.outputSuffix) ∧
        IsWord (h.name ++ kind.typeSuffix) := by
    simpa [typeNames] using isWord_typeNames kind word
  -- Only the three records start with the word for one; the rest of the file is passed over part by part.
  have header (origin package : String) :
      Go.declaredRecords [generatedFrom origin, "", "package " ++ package] = [] := by
    apply declaredRecords_of_clear
    simp [lead_generatedFrom, lead_empty, lead_package]
  have imports (paths : List String) : Go.declaredRecords (importBlock paths) = [] :=
    declaredRecords_of_clear (clear_importBlock (by decide) paths)
  have comment (l : String) (start : Go.lead l = some '/') : Go.declaredRecords ["", l] = [] := by
    apply declaredRecords_of_clear
    simp [start, lead_empty]
  have note := comment _ (lead_outputNote kind h)
  have constants (ls : List String) : Go.declaredRecords (constantBlock ls) = [] :=
    declaredRecords_of_clear (clear_constantBlock (by decide))
  have method (signature : String) (body : List String) :
      Go.declaredRecords (braces (method kind h signature) body) = [] := by
    apply declaredRecords_of_clear
    rw [clear_braces (by decide)]
    simp [Emit.method, Go.lead]
  unfold handlerLines
  simp only [declaredRecords_append, header, imports, note, constants, method,
    declaredRecords_structType input, declaredRecords_structType output,
    declaredRecords_structType type]
  rw [comment, comment, comment, comment]
  · rfl
  · exact Go.lead_append (Go.lead_literal _ _) _
  all_goals
    simp only [String.append_assoc]
    exact Go.lead_append (Go.lead_literal _ _) _

theorem declaredRecords_stubLines (kind : HandlerKind) (h : Handler) :
    Go.declaredRecords (stubLines kind h) = [] :=
  declaredRecords_of_clear (clear_stubLines (by decide) kind h)

theorem declaredRecords_typeLines {t : CustomType} (word : IsWord t.name) (spec : Spec) :
    Go.declaredRecords (typeLines t spec) = [t.name] := by
  have front (note : String) (start : Go.lead note = some '/') :
      Go.declaredRecords ([generatedFrom (quoted t.rawName ++ " type"), "", "package types"] ++
        importBlock (typeImports t spec) ++ ["", note]) = [] :=
    declaredRecords_of_clear (clear_header (by decide) _ _ rfl start)
  have constants (ls : List String) : Go.declaredRecords (constantBlock ls) = [] :=
    declaredRecords_of_clear (clear_constantBlock (by decide))
  unfold typeLines
  rw [declaredRecords_append, declaredRecords_append, front, declaredRecords_structType word,
    constants]
  · rfl
  · simp [Go.lead]

@[simp] theorem declaredFunctions_append (ls more : List String) :
    Go.declaredFunctions (ls ++ more) = Go.declaredFunctions ls ++ Go.declaredFunctions more :=
  List.filterMap_append

theorem declaredFunctions_of_clear (clear : Each (Go.lead · ≠ some 'f') ls) :
    Go.declaredFunctions ls = [] := by
  rw [Go.declaredFunctions, List.filterMap_eq_nil_iff]
  exact fun l member => Go.functionName?_of_lead (clear l member)

theorem declaredFunctions_braces (function : Go.functionName? (head ++ " \x7b") = some name)
    (body : List String) : Go.declaredFunctions (braces head body) = [name] := by
  have rest : Each (Go.lead · ≠ some 'f') (indent body ++ ["\x7d"]) :=
    each_append.mpr ⟨clear_indent (by decide), by simp [Go.lead]⟩
  have own : Go.declaredFunctions [head ++ " \x7b"] = [name] := by
    rw [Go.declaredFunctions, List.filterMap_cons_some function, List.filterMap_nil]
  rw [Go.braces_eq, ← List.singleton_append, declaredFunctions_append, own,
    declaredFunctions_of_clear rest, List.append_nil]

theorem clear_serverFront (spec : Spec) : Each (Go.lead · ≠ some 'f')
    ([generatedFrom (spec.name ++ " plugin spec"), "", "package server", ""] ++
      parens "import" [quoted "net/http", quoted "time"] ++
      ["", "// New returns the HTTP server of the " ++ spec.name ++ " plugin, with one",
       "// route per action"]) := by
  rw [each_append, each_append, each_cons, lead_generatedFrom, clear_parens (by decide)]
  simp [Go.lead]

theorem declaredFunctions_serverLines (spec : Spec) :
    Go.declaredFunctions (serverLines spec) = ["New"] := by
  have new : Go.functionName? ("func New() *http.Server" ++ " \x7b") = some "New" := by decide
  unfold serverLines
  rw [declaredFunctions_append, declaredFunctions_of_clear (clear_serverFront spec),
    declaredFunctions_braces new]
  rfl

theorem declaredFunctions_routeLines (word : IsWord h.name) :
    Go.declaredFunctions (routeLines h) = ["Handle" ++ h.name] := by
  have function : Go.functionName?
      ("func Handle" ++ h.name ++ "(w http.ResponseWriter, r *http.Request)" ++ " \x7b") =
        some ("Handle" ++ h.name) := by
    have whole : '(' ∉ ("Handle" ++ h.name).toList :=
      (IsWord.append (by decide) word).not_mem (by decide)
    exact Go.functionName?_head (by simp) whole
      "w http.ResponseWriter, r *http.Request) \x7b".toList (by simp)
  -- The imports of a route come in two paragraphs, which no other file of handlers has.
  have blocks : Each (Go.lead · ≠ some 'f') (parensOf "import"
      [[quoted "encoding/json", quoted "net/http"],
       [quoted (h.packageRoot ++ "/actions"), quoted (h.packageRoot ++ "/connection")]]) := by
    have inner (ls : List String) : Each (Go.lead · ≠ some 'f') (indent ls) := clear_indent (by decide)
    have margin : Go.lead "import (" ≠ some 'f' ∧ Go.lead "" ≠ some 'f' ∧ Go.lead ")" ≠ some 'f' := by
      decide
    simpa [parensOf, paragraphs, inner] using margin
  unfold routeLines
  rw [declaredFunctions_append, declaredFunctions_braces function, declaredFunctions_of_clear]
  · rfl
  · have comment : Go.lead (generatedFrom (quoted h.rawName ++ " action")) ≠ some 'f' := by
      rw [lead_generatedFrom]
      decide
    simp only [each_append, each_cons, comment, blocks, each_nil, String.append_assoc, and_true,
      true_and, ne_eq, not_false_eq_true]
    and_intros
    all_goals first
      | with_reducible exact lead_literal_ne (by decide)
      | with_reducible exact lead_literal_append_ne (by decide)
      | exact lead_empty_ne

end PluginCompiler.Emit
