import PluginCompiler.Proofs.Connection.Agreement
import PluginCompiler.Proofs.Emit.Flat

/-! Comments of generated files. Descriptions are joined into one line; the name of the plugin and the
names of declarations are copied as they are. -/

set_option autoImplicit false

namespace PluginCompiler

open Go (IsLine)
open Naming (IsWord)

namespace Go

variable {line s : String}

def isComment (line : String) : Bool := ['/', '/'].isPrefixOf (line.toList.dropWhile (· == '\t'))

theorem isComment_indent (line : String) : isComment ("\t" ++ line) = isComment line := by
  simp [isComment]

theorem isComment_of_lead (noTab : lead line ≠ some '\t') (noSlash : lead line ≠ some '/') :
    isComment line = false := by
  rw [lead] at noTab noSlash
  rw [isComment]
  cases chars : line.toList with
  | nil => rfl
  | cons c cs =>
    rw [chars, List.head?_cons] at noTab noSlash
    have tab : c ≠ '\t' := fun same => noTab (congrArg some same)
    have slash : c ≠ '/' := fun same => noSlash (congrArg some same)
    rw [List.dropWhile_cons_of_neg (by simpa using tab), List.isPrefixOf, beq_false_of_ne slash.symm]
    rfl

theorem isComment_literal (cs : List Char) : isComment (String.ofList ('/' :: '/' :: cs)) = true := by
  simp [isComment]

theorem isComment_append (comment : isComment line = true) (s : String) :
    isComment (line ++ s) = true := by
  rw [isComment, List.isPrefixOf_iff_prefix] at comment ⊢
  have some_ : (line.toList.dropWhile (· == '\t')).isEmpty = false := by
    cases chars : line.toList.dropWhile (· == '\t') with
    | nil => simp [chars] at comment
    | cons c cs => rfl
  rw [String.toList_append, List.dropWhile_append, some_]
  exact comment.trans (List.prefix_append _ _)

end Go

namespace Emit

variable {l head name : String} {ls more : List String} {p : Parameter} {h : Handler} {spec : Spec}

/-- The line has no break if it is a comment. -/
abbrev Whole (l : String) : Prop := Go.isComment l = true → IsLine l

theorem whole_comment (comment : Go.isComment l = true) :
    Each Whole (l :: ls) ↔ IsLine l ∧ Each Whole ls := by
  rw [each_cons, Whole, forall_prop_of_true comment]

theorem whole_of_code (code : Go.isComment l = false) : Whole l := by
  simp [Whole, code]

theorem whole_code (code : Go.isComment l = false) : Each Whole (l :: ls) ↔ Each Whole ls := by
  rw [each_cons, and_iff_right (whole_of_code code)]

@[simp] theorem whole_indent : Each Whole (indent ls) ↔ Each Whole ls :=
  each_indent fun l => by rw [Whole, Go.isComment_indent, isLine_indent]

theorem Each.whole (single : Each IsLine ls) : Each Whole ls := fun l member _ => single l member

theorem whole_braces (code : Go.isComment (head ++ " \x7b") = false) :
    Each Whole (braces head ls) ↔ Each Whole ls := by
  rw [each_braces, whole_indent, and_iff_right (whole_of_code code),
    and_iff_left (whole_of_code (by decide))]

theorem whole_parens (code : Go.isComment (head ++ " (") = false) :
    Each Whole (parens head ls) ↔ Each Whole ls := by
  rw [each_parens, whole_indent, and_iff_right (whole_of_code code),
    and_iff_left (whole_of_code (by decide))]

theorem whole_structType (body : List String) : Each Whole (structType name body) ↔ Each Whole body :=
  whole_braces (Go.isComment_of_lead (by simp [Go.lead]) (by simp [Go.lead]))

theorem whole_constantBlock : Each Whole (constantBlock ls) ↔ Each Whole ls :=
  (each_constantBlock (by decide) (by decide)).trans whole_indent

theorem isComment_quoted (text : String) : Go.isComment (quoted text) = false := by
  simp [quoted, Go.isComment, List.isPrefixOf]

theorem whole_quoted (paths : List String) : Each Whole (paths.map quoted) :=
  each_map.mpr fun path _ => whole_of_code (isComment_quoted path)

theorem whole_importBlock (paths : List String) : Each Whole (importBlock paths) := by
  rw [each_importBlock (by decide) (by decide), whole_indent]
  exact whole_quoted paths

theorem isComment_word (word : IsWord name) (rest : List Char)
    (chars : l.toList = name.toList ++ ' ' :: rest) : Go.isComment l = false := by
  -- An empty word leaves the blank in front, any other a character of its own.
  cases first : name.toList with
  | nil => apply Go.isComment_of_lead <;> simp [Go.lead, chars, first]
  | cons c cs =>
    have own : Naming.isWordChar c = true := word c (first ▸ List.mem_cons_self)
    apply Go.isComment_of_lead <;> simp only [Go.lead, chars, first, List.cons_append, List.head?_cons,
      ne_eq, Option.some.injEq] <;> rintro rfl <;> exact absurd own (by decide)

theorem whole_declaration (word : IsWord p.name) (type : String) : Each Whole [declaration type p] := by
  have code : Go.isComment (declaration type p) = false :=
    isComment_word word (pointerMark p ++ type ++ " " ++ (declared type p).tag).toList
      (by simp [declaration])
  exact each_cons.mpr ⟨whole_of_code code, each_nil⟩

theorem whole_field (word : IsWord p.name) (type : String) : Each Whole (field type p) := by
  have note : Each Whole (fieldNote p) := by
    rw [fieldNote]
    split
    · split
      · exact each_nil
      · refine (each_cons.mpr ⟨?_, each_nil⟩ : Each IsLine _).whole
        simp only [Go.isLine_append, Go.isLine_of_isWord word, isLine_comment, and_true]
        decide
    · exact each_nil
  rw [field_eq, each_append]
  exact ⟨note, whole_declaration word type⟩

theorem whole_fields {s : Section Parameter} (words : ∀ p ∈ s.values, IsWord p.name) :
    Each Whole (fields s) :=
  each_flatMap.mpr fun p member => whole_field (words p member) p.type

theorem whole_constants {start owner : String} {literals : List EnumLiteral}
    (words : ∀ l ∈ literals, IsWord (start ++ l.name)) :
    Each Whole (constants start owner literals) ↔ (literals ≠ [] → IsLine owner) := by
  have each : ∀ l ∈ literals, Each Whole
      ["// " ++ start ++ l.name ++ " is an allowed value of " ++ owner,
        start ++ l.name ++ " = " ++ Go.constant l.literal] ↔ IsLine owner := by
    intro l member
    have comment : Go.isComment
        ("// " ++ start ++ l.name ++ " is an allowed value of " ++ owner) = true := by
      simp [Go.isComment]
    have definition : Go.isComment (start ++ l.name ++ " = " ++ Go.constant l.literal) = false :=
      isComment_word (words l member) ("= " ++ Go.constant l.literal).toList (by simp)
    have name := Go.isLine_of_isWord (words l member)
    rw [Go.isLine_append] at name
    rw [whole_comment comment, whole_code definition, and_iff_left each_nil]
    -- What is left are the literals of the program around the owner.
    simp only [Go.isLine_append, name, and_true]
    exact and_iff_right (by decide)
  rw [constants, each_flatMap]
  constructor
  · intro all filled
    obtain ⟨l, member⟩ := List.exists_mem_of_ne_nil _ filled
    exact (each l member).mp (all l member)
  · exact fun own l member => (each l member).mpr (own (List.ne_nil_of_mem member))

theorem whole_parameterConstants {start : String} {params : List Parameter} {owner : Parameter → String}
    (words : ∀ p ∈ params, ∀ l ∈ p.enumLiterals, IsWord (start ++ l.name)) :
    Each Whole (params.flatMap fun p => constants start (owner p) p.enumLiterals) ↔
      ∀ p ∈ params, p.enumLiterals ≠ [] → IsLine (owner p) := by
  rw [each_flatMap]
  exact forall₂_congr fun p member => whole_constants (words p member)

variable {known : List String} {t : CustomType}

/-- The names of the parameters whose constants say what they are values of have no break. -/
def ConstantsNamed (params : List Parameter) : Prop :=
  ∀ p ∈ params, p.enumLiterals ≠ [] → IsLine p.rawName

instance (params : List Parameter) : Decidable (ConstantsNamed params) :=
  inferInstanceAs (Decidable (∀ p ∈ params, p.enumLiterals ≠ [] → IsLine p.rawName))

theorem constantsNamed_append {params others : List Parameter} :
    ConstantsNamed (params ++ others) ↔ ConstantsNamed params ∧ ConstantsNamed others := by
  simp [ConstantsNamed, or_imp, forall_and]

theorem isComment_generatedFrom (origin : String) : Go.isComment (generatedFrom origin) = true := by
  unfold generatedFrom
  simp [Go.isComment]

theorem whole_generatedFrom {origin : String} :
    Each Whole (generatedFrom origin :: ls) ↔ IsLine origin ∧ Each Whole ls := by
  rw [whole_comment (isComment_generatedFrom origin), isLine_generatedFrom]

theorem whole_ownedNote : Each Whole ownedNote := single_ownedNote.whole

theorem whole_method (kind : HandlerKind) (h : Handler) (signature : String) (body : List String) :
    Each Whole (braces (method kind h signature) body) ↔ Each Whole body :=
  whole_braces (Go.isComment_of_lead (by simp [method, Go.lead]) (by simp [method, Go.lead]))

theorem whole_sectionConstants {start : String} (word : IsWord start) {s : Section Parameter}
    (derived : ∀ p ∈ s.values, p.Derived known) :
    Each Whole (sectionConstants start s) ↔ ConstantsNamed s.values :=
  whole_parameterConstants fun p member l literal =>
    word.append ((derived p member).literals l literal).1

theorem whole_note (comment : Go.isComment l = true) : Each Whole ["", l] ↔ IsLine l := by
  rw [whole_code (by decide), whole_comment comment, and_iff_left each_nil]

theorem whole_inputNote (kind : HandlerKind) (name : IsLine h.name) :
    Each Whole ["", "// " ++ h.name ++ "Input are the inputs of the " ++ h.rawName ++ " " ++ kind.word] ↔
      IsLine h.rawName := by
  have word : IsLine kind.word := by cases kind <;> decide
  rw [whole_note (by simp [Go.isComment])]
  simp +decide only [Go.isLine_append, name, word, and_true, true_and]

theorem whole_outputNote (kind : HandlerKind) (name : IsLine h.name) :
    Each Whole ["", kind.outputNote h] ↔ IsLine h.rawName := by
  have comment : Go.isComment (kind.outputNote h) = true := by
    cases kind <;> simp [HandlerKind.outputNote, Go.isComment]
  rw [whole_note comment]
  cases kind
  all_goals simp +decide only [HandlerKind.outputNote, Go.isLine_append, name, and_true, true_and]

theorem whole_singleton (code : Go.isComment l = false) : Each Whole [l] := (whole_code code).mpr each_nil

theorem whole_handlerState (kind : HandlerKind) (h : Handler) : Each Whole (handlerState kind h) := by
  cases kind <;> simp [handlerState, Go.isComment, each_nil]

theorem whole_handlerLines (kind : HandlerKind) (word : IsWord h.name)
    (derived : ∀ p ∈ h.parameters, p.Derived known) :
    Each Whole (handlerLines kind h) ↔ IsLine h.rawName ∧ ConstantsNamed h.parameters := by
  have input : ∀ p ∈ h.input.values, p.Derived known := fun p member =>
    derived p (List.mem_append_left _ member)
  have output : ∀ p ∈ h.output.values, p.Derived known := fun p member =>
    derived p (List.mem_append_right _ member)
  have name := Go.isLine_of_isWord word
  have suffix : IsWord kind.outputSuffix := by cases kind <;> decide
  have fields {s : Section Parameter} (own : ∀ p ∈ s.values, p.Derived known) : Each Whole (fields s) :=
    whole_fields fun p member => (own p member).isWord_name
  -- Constants of inputs and of outputs have different starts, but say the same of their owners.
  have constants : Each Whole (handlerConstants kind h) ↔ ConstantsNamed h.parameters := by
    rw [handlerConstants, each_append, whole_sectionConstants (word.append (by decide)) input,
      whole_sectionConstants (word.append suffix) output, Handler.parameters, constantsNamed_append]
  have kindWord : IsLine kind.word := by cases kind <;> exact Go.isLine_literal rfl
  have suffixes : IsLine kind.typeSuffix := by cases kind <;> exact Go.isLine_literal rfl
  have origin : IsLine (quoted h.rawName ++ " " ++ kind.word) ↔ IsLine h.rawName := by
    rw [Go.isLine_append, and_iff_left kindWord, Go.isLine_append_literal rfl, isLine_quoted]
  -- The description is joined into one line, so that nothing is asked of it.
  have purpose : Each Whole ["", "// " ++ (h.name ++ kind.typeSuffix) ++ " " ++
      Go.comment (orElse ("runs the " ++ h.rawName ++ " " ++ kind.word) h.description)] := by
    rw [whole_note (by simp [Go.isComment])]
    simp +decide only [Go.isLine_append, name, suffixes, isLine_comment]
  have package : Each Whole ["", "package " ++ kind.package] := by cases kind <;> decide
  have named : Each IsLine ["", "// Name returns the name of the " ++ kind.word ++
      " as declared in the plugin spec"] := by
    simp only [each_cons, each_nil, Go.isLine_append, kindWord, and_true]
    and_intros <;> exact Go.isLine_literal rfl
  have titled : Each IsLine ["", "// Title returns the human readable title of the " ++ kind.word] := by
    simp only [each_cons, each_nil, Go.isLine_append, kindWord, and_true]
    and_intros <;> exact Go.isLine_literal rfl
  have body (expression : String) : Each Whole ["return " ++ expression] :=
    whole_singleton (Go.isComment_of_lead (by simp [Go.lead]) (by simp [Go.lead]))
  unfold handlerLines
  simp only [each_append, whole_generatedFrom, package, whole_importBlock, whole_inputNote kind name,
    whole_structType, fields input, fields output, whole_outputNote kind name, whole_constantBlock,
    constants, purpose, whole_handlerState, named.whole, titled.whole, whole_method, body, origin, and_true,
    and_self_iff]

theorem whole_stubLines (kind : HandlerKind) : Each Whole (stubLines kind h) ↔ IsLine h.rawName := by
  cases kind with
  | action =>
    have front : Each Whole ["package actions", "", "// Run executes the " ++ h.rawName ++ " action."] ↔
        IsLine h.rawName := by
      rw [whole_code (Go.isComment_of_lead (lead_literal_ne (by decide)) (lead_literal_ne (by decide))),
        whole_note (Go.isComment_append (Go.isComment_append (Go.isComment_literal _) _) _)]
      exact Go.isLine_between rfl rfl
    have body : Each Whole ["// Implement " ++ h.rawName ++ " here. a.Conn holds the plugin connection.",
        "return &" ++ (h.name ++ "Output") ++ "\x7b\x7d, nil"] ↔ IsLine h.rawName := by
      rw [whole_comment (Go.isComment_append (Go.isComment_append (Go.isComment_literal _) _) _),
        and_iff_left (whole_singleton (by simp [Go.isComment, List.isPrefixOf]))]
      exact Go.isLine_between rfl rfl
    simp only [stubLines, actionStubLines, each_append, whole_method, whole_ownedNote, front, body,
      and_true, and_self_iff]
  | trigger =>
    have front : Each Whole ["package triggers", "",
        "// Run starts the " ++ h.rawName ++ " trigger. Send each event to t.Events",
        "// and return when the trigger is done or fails."] ↔ IsLine h.rawName := by
      have second : Each IsLine ["// and return when the trigger is done or fails."] :=
        each_cons.mpr ⟨Go.isLine_literal rfl, each_nil⟩
      rw [whole_code (Go.isComment_of_lead (lead_literal_ne (by decide)) (lead_literal_ne (by decide))),
        whole_code (by decide),
        whole_comment (Go.isComment_append (Go.isComment_append (Go.isComment_literal _) _) _),
        and_iff_left second.whole]
      exact Go.isLine_between rfl rfl
    have body : Each Whole ["// Implement " ++ h.rawName ++ " here. t.Conn holds the plugin connection.",
        "return nil"] ↔ IsLine h.rawName := by
      rw [whole_comment (Go.isComment_append (Go.isComment_append (Go.isComment_literal _) _) _),
        and_iff_left (whole_singleton (by decide))]
      exact Go.isLine_between rfl rfl
    simp only [stubLines, triggerStubLines, each_append, whole_method, whole_ownedNote, front, body,
      and_true, and_self_iff]

theorem whole_connectionLines (derived : ∀ p ∈ spec.connection.values, p.Derived known) :
    Each Whole (connectionLines spec) ↔ IsLine spec.name ∧ ConstantsNamed spec.connection.values := by
  have origin : IsLine (spec.name ++ " connection") ↔ IsLine spec.name := Go.isLine_append_literal rfl
  have package : Each Whole ["", "package connection"] := by decide
  have data : Each Whole ["", "// Data is the connection of the " ++ spec.name ++ " plugin"] ↔
      IsLine spec.name := by
    rw [whole_note (Go.isComment_append (Go.isComment_append (Go.isComment_literal _) _) _)]
    exact Go.isLine_between rfl rfl
  have key : Each Whole ["", "// Key identifies this connection in the connection cache"] := by
    rw [whole_note (Go.isComment_literal _)]
    exact Go.isLine_literal rfl
  have body : Each Whole (braces "func (c *Data) Key() string" ["return " ++ spec.connectionKey]) :=
    (whole_braces (by decide)).mpr (whole_singleton
      (Go.isComment_of_lead (by simp [Go.lead]) (by simp [Go.lead])))
  have helper := (single_keyHelper spec).whole
  have fields : Each Whole (fields spec.connection) :=
    whole_fields fun p member => (derived p member).isWord_name
  unfold connectionLines
  simp only [each_append, whole_generatedFrom, package, whole_importBlock, whole_structType,
    whole_constantBlock, whole_sectionConstants (by decide : IsWord "Data") derived, origin, data, key,
    body, helper, fields, and_true, and_self_iff]

theorem whole_connectLines : Each Whole connectLines := single_connectLines.whole

theorem whole_cacheLines : Each Whole cacheLines := single_cacheLines.whole

theorem whole_programImports (spec : Spec) : Each Whole (programImports spec) := by
  have server (path : String) : Go.isComment ("server " ++ quoted path) = false := by
    simp [Go.isComment, List.isPrefixOf]
  rw [programImports, each_append, each_append, whole_code (isComment_quoted _),
    whole_code (server _)]
  refine ⟨⟨?_, each_nil⟩, ?_⟩
  all_goals
    split
    · exact each_nil
    · exact whole_singleton (isComment_quoted _)

theorem whole_parensOf {part next : List String} (code : Go.isComment (head ++ " (") = false) :
    Each Whole (parensOf head [part, next]) ↔ Each Whole part ∧ Each Whole next := by
  have closing : Go.isComment ")" = false := by decide
  have gap : Go.isComment "" = false := by decide
  simp [parensOf, code, closing, gap, each_nil]

theorem whole_programLines (words : ∀ kind, ∀ h ∈ (spec.handlers kind).values, IsWord h.name) :
    Each Whole (programLines spec) ↔ IsLine spec.name := by
  have origin : IsLine (spec.name ++ " plugin spec") ↔ IsLine spec.name := Go.isLine_append_literal rfl
  have package : Each Whole ["", "package main", ""] := by decide
  have gap : Each Whole [""] := by decide
  have imports : Each Whole (parensOf "import"
      [["encoding/json", "flag", "fmt", "log", "os"].map quoted, programImports spec]) := by
    rw [whole_parensOf (by decide)]
    exact ⟨whole_quoted _, whole_programImports spec⟩
  unfold programLines
  simp only [each_append, whole_generatedFrom, package, origin, imports, gap, single_messageTypes.whole,
    (single_entryFunction spec).whole, (single_dispatchFunction words).whole,
    single_decodeFunction.whole, and_true]

theorem lead_route (h : Handler) : Go.lead (route h) = some 'm' := by
  unfold route
  simp [Go.lead]

theorem whole_serverLines (spec : Spec) : Each Whole (serverLines spec) ↔ IsLine spec.name := by
  have origin : IsLine (spec.name ++ " plugin spec") ↔ IsLine spec.name := Go.isLine_append_literal rfl
  have package : Each Whole ["", "package server", ""] := by decide
  have imports : Each Whole (parens "import" [quoted "net/http", quoted "time"]) := by
    rw [whole_parens (by decide)]
    exact whole_quoted ["net/http", "time"]
  have note : Each Whole ["", "// New returns the HTTP server of the " ++ spec.name ++ " plugin, with one",
      "// route per action"] ↔ IsLine spec.name := by
    have second : Each Whole ["// route per action"] := by decide
    rw [whole_code (by decide),
      whole_comment (Go.isComment_append (Go.isComment_append (Go.isComment_literal _) _) _),
      and_iff_left second]
    exact Go.isLine_between rfl rfl
  -- The names of actions stand in code here, where a break ends no comment.
  have routes : Each Whole (spec.actions.values.map route) := by
    intro l member comment
    obtain ⟨h, _, rfl⟩ := List.mem_map.mp member
    rw [Go.isComment_of_lead] at comment
    · cases comment
    all_goals
      rw [lead_route]
      decide
  have settings : Each IsLine ["Addr:         \":" ++ toString spec.http.port ++ "\",",
      "Handler:      mux,",
      "ReadTimeout:  " ++ toString spec.http.readTimeout ++ " * time.Second,",
      "WriteTimeout: " ++ toString spec.http.writeTimeout ++ " * time.Second,"] := by
    simp only [each_cons, each_nil, Go.isLine_append, Int.toString_eq_repr, isLine_repr, and_true]
    and_intros <;> exact Go.isLine_literal rfl
  unfold serverLines
  rw [each_append, each_append, each_append, whole_generatedFrom, origin, note, whole_braces (by decide),
    each_append, each_append, each_append, each_append, whole_indent]
  refine ⟨fun whole => whole.1.2, fun own => ⟨⟨⟨⟨own, package⟩, imports⟩, own⟩, ?_⟩⟩
  exact ⟨⟨⟨⟨by decide, routes⟩, by decide⟩, settings.whole⟩, by decide⟩

theorem whole_routeLines (name : IsLine h.name) : Each Whole (routeLines h) ↔ IsLine h.rawName := by
  have origin : IsLine (quoted h.rawName ++ " action") ↔ IsLine h.rawName := by
    rw [Go.isLine_append_literal rfl, isLine_quoted]
  have package : Each Whole ["", "package server", ""] := by decide
  have note : Each Whole ["", "// Handle" ++ h.name ++ " runs the " ++ h.rawName ++ " action for a POSTed",
      "// \x7b\"connection\": ..., \"input\": ...\x7d body and responds with its output"] ↔
        IsLine h.rawName := by
    have second : Each IsLine ["// \x7b\"connection\": ..., \"input\": ...\x7d body and responds with its output"] :=
      each_cons.mpr ⟨Go.isLine_literal rfl, each_nil⟩
    have called : IsLine ("// Handle" ++ h.name) := Go.isLine_append.mpr ⟨Go.isLine_literal rfl, name⟩
    rw [whole_code (by decide), whole_comment (Go.isComment_append (Go.isComment_append
      (Go.isComment_append (Go.isComment_append (Go.isComment_literal _) _) _) _) _),
      and_iff_left second.whole, Go.isLine_append_literal rfl, Go.isLine_append, Go.isLine_append_literal rfl,
      and_iff_right called]
  have imports : Each Whole (parensOf "import"
      [[quoted "encoding/json", quoted "net/http"],
        [quoted (h.packageRoot ++ "/actions"), quoted (h.packageRoot ++ "/connection")]]) := by
    rw [whole_parensOf (by decide)]
    exact ⟨whole_quoted ["encoding/json", "net/http"],
      whole_quoted [h.packageRoot ++ "/actions", h.packageRoot ++ "/connection"]⟩
  unfold routeLines
  rw [each_append, each_append, each_append, whole_generatedFrom, origin, note]
  refine ⟨fun whole => whole.1.2, fun own => ⟨⟨⟨⟨own, package⟩, imports⟩, own⟩, Each.whole ?_⟩⟩
  simp only [each_append, each_cons, each_nil, single_braces, Go.isLine_append, name,
    isLine_rawQuoted, httpError, and_true]
  and_intros <;> exact Go.isLine_literal rfl

theorem whole_typeLines (word : IsWord t.name) (derived : ∀ p ∈ t.sortedFields, p.Derived known) :
    Each Whole (typeLines t spec) ↔
      (IsLine t.rawName ∧ IsLine spec.name) ∧ ConstantsNamed t.sortedFields := by
  have name := Go.isLine_of_isWord word
  have fields : Each Whole (t.sortedFields.flatMap typeField) := by
    refine each_flatMap.mpr fun p member => ?_
    rw [typeField]
    split
    · exact Each.whole (each_cons.mpr
        ⟨isLine_of_typeChars (derived p member).isTypeChar_internal, each_nil⟩)
    · exact whole_field (derived p member).isWord_name _
  have origin : IsLine (quoted t.rawName ++ " type") ↔ IsLine t.rawName := by
    rw [Go.isLine_append_literal rfl, isLine_quoted]
  have package : Each Whole ["", "package types"] := by decide
  have note : Each Whole ["", "// " ++ t.name ++ " is the " ++ t.rawName ++ " type declared by the " ++
      spec.name ++ " plugin"] ↔ IsLine t.rawName ∧ IsLine spec.name := by
    rw [whole_note (by simp [Go.isComment])]
    simp +decide only [Go.isLine_append, name, and_true, true_and]
  have constants : Each Whole (typeConstants t) ↔
      ∀ p ∈ t.sortedFields, p.enumLiterals ≠ [] → IsLine (t.rawName ++ "." ++ p.rawName) :=
    whole_parameterConstants fun p member l literal =>
      word.append ((derived p member).literals l literal).1
  have dot : IsLine "." := by decide
  -- The values of a field are said to be those of the type, too.
  simp only [Go.isLine_append, dot, and_true] at constants
  unfold typeLines
  rw [each_append, each_append, each_append, each_append, whole_generatedFrom, origin, note,
    whole_structType, whole_constantBlock, constants]
  constructor
  · rintro ⟨⟨⟨_, own⟩, _⟩, each⟩
    exact ⟨own, fun p member filled => (each p member filled).2⟩
  · rintro ⟨own, each⟩
    exact ⟨⟨⟨⟨⟨own.1, package⟩, whole_importBlock _⟩, own⟩, fields⟩,
      fun p member filled => ⟨own.1, each p member filled⟩⟩

end Emit

end PluginCompiler
