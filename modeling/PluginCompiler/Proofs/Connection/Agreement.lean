import PluginCompiler.Proofs.Connection.Operands
import PluginCompiler.Proofs.Emit.Lines
import PluginCompiler.Proofs.Enrich.Literals
import PluginCompiler.Proofs.Template.Written

/-! The key of a connection beside the rest of its file: the fields that the data declares, and the
helper for texts that may be absent. The file is written line by line, and its lines are what a reader
sees as long as no name that is copied into it has a break. -/

set_option autoImplicit false

namespace PluginCompiler

open Naming (IsWord)
open Emit

def Go.Field.operand? (f : Go.Field) : Option KeyOperand :=
  if f.type = "string" then some (.text f.name)
  else if f.type = "*string" then some (.optional f.name)
  else none

def fieldOperands (ls : List String) : List KeyOperand :=
  (Go.declaredFields "Data" ls).filterMap Go.Field.operand?

def keyMethod : String := "func (c *Data) Key() string"

/-- A key that goes with the lines of the file it is in, for parameters under the names `keys`. It adds
up the fields that hold texts, in the order of the names, and the file defines the helper if it is
called. -/
structure KeyFits (keys : List String) (ls : List String) (expression : String) : Prop where
  fields : (Go.declaredFields "Data" ls).map Go.Field.name = keys.map Naming.upperCamel
  returned : Go.returned? keyMethod ls = some expression
  operands : KeyOperand.readAll? expression = some (fieldOperands ls)
  literal : expression = "\"\"" ↔ fieldOperands ls = []
  helper : Go.definitions KeyOperand.helper ls =
    if (fieldOperands ls).any KeyOperand.isOptional then 1 else 0

variable {params : List Parameter} {p : Parameter} {spec enriched : Spec}

/-- Parameters with the names and types that a generated record can declare. -/
def Declarable (params : List Parameter) : Prop :=
  ∀ p ∈ params, IsWord p.name ∧ ∀ c ∈ p.type.toList, Go.GoType.isTypeChar c = true

theorem not_mem_of_typeChars {type : String} (typed : ∀ c ∈ type.toList, Go.GoType.isTypeChar c = true)
    {c : Char} (other : Go.GoType.isTypeChar c = false) : c ∉ type.toList := by
  intro member
  simp [typed c member] at other

theorem operand?_declared (typed : ∀ c ∈ p.type.toList, Go.GoType.isTypeChar c = true) :
    (declared p.type p).operand? =
      if p.type == Go.Primitive.string.expression then some p.operand else none := by
  -- Only the mark of a pointer starts with a star, so neither type can be taken for the other.
  have unmarked : p.type ≠ "*string" := by
    intro same
    exact not_mem_of_typeChars typed (c := '*') (by decide) (by simp [same])
  have marked : "*" ++ p.type ≠ "string" := by
    intro same
    have chars := congrArg String.toList same
    simp at chars
  have cancel : "*" ++ p.type = "*string" ↔ p.type = "string" := by
    have split : "*string" = "*" ++ "string" := rfl
    rw [split, String.append_right_inj]
  cases nullable : p.nullable with
  | false => simp [Go.Field.operand?, declared, pointerMark, Parameter.operand, nullable, unmarked,
      Go.Primitive.expression]
  | true => simp [Go.Field.operand?, declared, pointerMark, Parameter.operand, nullable, marked, cancel,
      Go.Primitive.expression]

theorem operands_of_declared (declarable : Declarable params) :
    (params.map fun p => declared p.type p).filterMap Go.Field.operand? =
      (keyParameters params).map Parameter.operand := by
  induction params with
  | nil => rfl
  | cons p rest ih =>
    obtain ⟨own, later⟩ := List.forall_mem_cons.mp declarable
    have further := ih later
    rw [keyParameters] at further ⊢
    rw [List.map_cons, List.filterMap_cons, operand?_declared own.2, List.filter_cons, further]
    by_cases texted : (p.type == Go.Primitive.string.expression) = true
    · simp only [texted, ↓reduceIte, List.map_cons]
    · simp only [texted, Bool.false_eq_true, ↓reduceIte]

theorem any_isOptional (params : List Parameter) :
    ((keyParameters params).map Parameter.operand).any KeyOperand.isOptional =
      params.any fun p => p.nullable && p.type == "string" := by
  rw [List.any_map, keyParameters, List.any_filter]
  congr 1
  funext p
  rw [Function.comp_apply, KeyOperand.isOptional_operand, Bool.and_comm]
  rfl

theorem Section.Enriched.declarable {known : List String} {owner : String} {s s' : Section Parameter}
    (becomes : Section.Enriched known owner s s') : Declarable s'.values := by
  intro p member
  obtain ⟨_, own⟩ := becomes.of_mem member
  rw [own.name]
  exact ⟨Naming.isWord_upperCamel _, isTypeChar_of_resolveType own.type⟩

theorem encloses_data (spec : Spec) :
    Go.Encloses ("type " ++ "Data" ++ " struct") (fields spec.connection) (connectionLines spec) := by
  unfold connectionLines
  -- Four parts follow the data: the constants, the comment of the key, the key and the helper.
  refine .append (.append (.append (.append (Go.encloses_braces (Each.not_mem (c := 't') ?_ rfl) _))))
  exact clear_header (by decide) _ _ rfl (lead_dataNote spec)

theorem connectionLines_eq (spec : Spec) :
    ∃ before, connectionLines spec =
        before ++ braces keyMethod ["return " ++ spec.connectionKey] ++
          (if readsOptionalText spec.connection then apart optionalTextHelper else []) ∧
      Each (Go.lead · ≠ some 'f') before := by
  refine ⟨_, rfl, ?_⟩
  rw [each_append, each_append, each_append]
  exact ⟨⟨⟨clear_header (by decide) _ _ rfl (lead_dataNote spec), clear_structType (by decide) _ _⟩,
    clear_constantBlock (by decide)⟩, clear_note (by decide) (Go.lead_literal _ _)⟩

theorem encloses_key (spec : Spec) :
    Go.Encloses keyMethod ["return " ++ spec.connectionKey] (connectionLines spec) := by
  obtain ⟨before, lines, clear⟩ := connectionLines_eq spec
  rw [lines]
  exact .append (Go.encloses_braces (clear.not_mem rfl) _)

theorem declaredFields_connectionLines (declarable : Declarable spec.connection.values) :
    Go.declaredFields "Data" (connectionLines spec) =
      spec.connection.values.map fun p => declared p.type p := by
  have readable : ∀ p ∈ spec.connection.values, IsWord p.name ∧ ' ' ∉ p.type.toList := by
    intro p member
    obtain ⟨word, typed⟩ := declarable p member
    exact ⟨word, not_mem_of_typeChars typed (by decide)⟩
  rw [(encloses_data spec).declaredFields_eq, fields_of_section readable]

theorem definitions_append (name : String) (ls more : List String) :
    Go.definitions name (ls ++ more) = Go.definitions name ls + Go.definitions name more :=
  List.countP_append

theorem definitions_of_clear {ls : List String} (name : String) (clear : Each (Go.lead · ≠ some 'f') ls) :
    Go.definitions name ls = 0 := by
  rw [Go.definitions, List.countP_eq_zero]
  intro l member
  have start : ("func " ++ name ++ "(").toList = 'f' :: ("unc " ++ name ++ "(").toList := by simp
  have other : l.toList.head? ≠ some 'f' := clear l member
  rw [start]
  cases chars : l.toList with
  | nil => simp
  | cons c cs =>
    rw [chars] at other
    have apart : 'f' ≠ c := by
      rintro rfl
      exact other rfl
    simp [apart]

theorem definitions_braces (name head : String) (body : List String) :
    Go.definitions name (braces head body) = Go.definitions name [head ++ " \x7b"] := by
  have rest : Each (Go.lead · ≠ some 'f') (indent body ++ ["\x7d"]) :=
    each_append.mpr ⟨clear_indent (by decide), by simp [Go.lead]⟩
  rw [Go.braces_eq, ← List.singleton_append, definitions_append, definitions_of_clear name rest]
  rfl

theorem definitions_connectionLines (spec : Spec) :
    Go.definitions KeyOperand.helper (connectionLines spec) =
      if readsOptionalText spec.connection then 1 else 0 := by
  have key : Go.definitions KeyOperand.helper [keyMethod ++ " \x7b"] = 0 := by decide
  have helper : Go.definitions KeyOperand.helper (apart optionalTextHelper) = 1 := by decide
  obtain ⟨before, lines, clear⟩ := connectionLines_eq spec
  rw [lines, definitions_append, definitions_append, definitions_of_clear _ clear, definitions_braces,
    key, Nat.zero_add]
  split
  · exact helper
  · rfl

theorem fieldOperands_connectionLines (declarable : Declarable spec.connection.values) :
    fieldOperands (connectionLines spec) =
      (keyParameters spec.connection.values).map Parameter.operand := by
  rw [fieldOperands, declaredFields_connectionLines declarable, operands_of_declared declarable]

theorem keyFits_connectionLines (declarable : Declarable spec.connection.values)
    (named : ∀ e ∈ spec.connection.entries, e.2.name = Naming.upperCamel e.1)
    (key : spec.connectionKey = keyExpression spec.connection.values) :
    KeyFits spec.connection.names (connectionLines spec) spec.connectionKey where
  fields := by
    rw [declaredFields_connectionLines declarable, Section.names, Section.values, List.map_map,
      List.map_map, List.map_map]
    exact List.map_congr_left named
  returned := (encloses_key spec).returned?_eq
  operands := by
    rw [key, fieldOperands_connectionLines declarable]
    exact KeyOperand.readAll?_keyExpression fun p member => (declarable p member).1
  literal := by
    rw [key, fieldOperands_connectionLines declarable, KeyOperand.keyExpression_eq_empty,
      List.map_eq_nil_iff]
  helper := by
    rw [definitions_connectionLines, fieldOperands_connectionLines declarable, any_isOptional]
    rfl

open Go (IsLine)

/-- Texts that are copied into the file of a connection as they are: none has a break, and no name of a
parameter has the sign that ends a raw string. -/
structure Spec.Unbroken (spec : Spec) : Prop where
  name : IsLine spec.name
  packageRoot : IsLine spec.packageRoot
  keys : ∀ key ∈ spec.connection.names, IsLine key ∧ '\x60' ∉ key.toList

/-- A raw string, which ends where its sign stands again. -/
def Go.IsRawLiteral (s : String) : Prop := ∃ body, s = rawQuoted body ∧ '\x60' ∉ body.toList

theorem isRawLiteral_tag (type : String) (raw : '\x60' ∉ p.rawName.toList) :
    Go.IsRawLiteral (declared type p).tag := by
  refine ⟨_, rfl, ?_⟩
  have option : '\x60' ∉ (if p.required then "" else ",omitempty").toList := by
    split <;> decide
  simp [quoted, raw, option]

theorem isLine_keyExpression (words : ∀ p ∈ params, IsWord p.name) : IsLine (keyExpression params) := by
  have operand : ∀ p ∈ keyParameters params, IsLine p.keyOperand := by
    intro p member
    have name := Go.isLine_of_isWord (words p (List.mem_filter.mp member).1)
    rw [Parameter.keyOperand]
    split
    · simp only [Go.isLine_append, name]
      decide
    · simp only [Go.isLine_append, name]
      decide
  rw [keyExpression]
  split
  · decide
  · intro member
    rcases Text.mem_of_mem_intercalate member with between | ⟨o, inside, found⟩
    · exact absurd between (by decide)
    · obtain ⟨p, own, rfl⟩ := List.mem_map.mp inside
      exact operand p own found

theorem single_keyHelper (spec : Spec) :
    Each IsLine (if readsOptionalText spec.connection then apart optionalTextHelper else []) := by
  split
  · have test : Each IsLine (braces "if s == nil" ["return \"\""]) :=
      single_braces.mpr ⟨Go.isLine_literal rfl, each_cons.mpr ⟨Go.isLine_literal rfl, each_nil⟩⟩
    have last : Each IsLine ["return *s"] := each_cons.mpr ⟨Go.isLine_literal rfl, each_nil⟩
    exact (each_apart (by decide)).mpr
      (single_braces.mpr ⟨Go.isLine_literal rfl, each_append.mpr ⟨test, last⟩⟩)
  · exact each_nil

theorem single_connectionLines (unbroken : IsLine spec.name) (root : IsLine spec.packageRoot)
    (declarable : Declarable spec.connection.values)
    (keys : ∀ p ∈ spec.connection.values, IsLine p.rawName)
    (literals : ∀ p ∈ spec.connection.values, ∀ l ∈ p.enumLiterals, IsWord l.name ∧ IsLine l.literal)
    (key : IsLine spec.connectionKey) : Each IsLine (connectionLines spec) := by
  have data : Each IsLine (fields spec.connection) := by
    refine each_flatMap.mpr fun p member => ?_
    obtain ⟨word, typed⟩ := declarable p member
    exact single_field (keys p member) word (not_mem_of_typeChars typed (by decide))
  have constants : Each IsLine (sectionConstants "Data" spec.connection) := by
    refine each_flatMap.mpr fun p member => ?_
    refine single_constants (keys p member) (fun l literal => ?_) fun l literal => ?_
    · exact IsWord.append (by decide) (literals p member l literal).1
    · exact (literals p member l literal).2
  have origin : IsLine (spec.name ++ " connection") := (Go.isLine_append_literal rfl).mpr unbroken
  have front : Each IsLine [generatedFrom (spec.name ++ " connection"), "", "package connection"] := by
    simp only [each_cons, each_nil, isLine_generatedFrom, origin, and_true, true_and]
    and_intros <;> exact Go.isLine_literal rfl
  have note : Each IsLine ["", "// Data is the connection of the " ++ spec.name ++ " plugin"] := by
    simp only [each_cons, each_nil, and_true]
    exact ⟨Go.isLine_literal rfl, (Go.isLine_between rfl rfl).mpr unbroken⟩
  have keyNote : Each IsLine ["", "// Key identifies this connection in the connection cache"] := by
    simp only [each_cons, each_nil, and_true]
    and_intros <;> exact Go.isLine_literal rfl
  have body : Each IsLine ["return " ++ spec.connectionKey] := by
    simp only [each_cons, each_nil, Go.isLine_append, key, and_true]
    exact Go.isLine_literal rfl
  -- The parts of the file, in the order in which they are written.
  unfold connectionLines
  simp only [each_append]
  exact ⟨⟨⟨⟨⟨⟨⟨front, single_importBlock (single_typeImports root)⟩, note⟩,
    single_structType.mpr ⟨by decide, data⟩⟩, single_constantBlock.mpr constants⟩, keyNote⟩,
    single_braces.mpr ⟨Go.isLine_literal rfl, body⟩⟩, single_keyHelper spec⟩

namespace Spec

theorem unbroken_of_ok (ok : spec.enrich = .ok enriched) (unbroken : spec.Unbroken) :
    Each IsLine (connectionLines enriched) ∧
      ∀ f ∈ Go.declaredFields "Data" (connectionLines enriched), Go.IsRawLiteral f.tag := by
  have becomes := enriched_of_ok ok
  have declarable := becomes.connection.declarable
  have keys : ∀ p ∈ enriched.connection.values, IsLine p.rawName ∧ '\x60' ∉ p.rawName.toList := by
    intro p member
    obtain ⟨⟨key, p⟩, entry, rfl⟩ := List.mem_map.mp member
    obtain ⟨earlier, declared, own⟩ := becomes.connection.exists_of_mem entry
    rw [own.rawName]
    exact unbroken.keys key ((Section.ordered_sorted _).names.mem_iff.mp (List.mem_map_of_mem declared))
  have literals : ∀ p ∈ enriched.connection.values, ∀ l ∈ p.enumLiterals,
      IsWord l.name ∧ IsLine l.literal := by
    intro p member l literal
    obtain ⟨earlier, own⟩ := becomes.connection.of_mem member
    obtain ⟨v, _, expresses⟩ := own.expresses literal
    exact ⟨own.isWord_name literal, isLine_of_clean (Json.clean_compact expresses.text)⟩
  have name : enriched.name = spec.name := by rw [becomes.rest]
  have root : enriched.packageRoot = spec.packageRoot := by rw [becomes.rest]
  have key : IsLine enriched.connectionKey := by
    rw [(derived_of_ok ok).2]
    exact isLine_keyExpression fun p member => (declarable p member).1
  constructor
  · exact single_connectionLines (name ▸ unbroken.name) (root ▸ unbroken.packageRoot) declarable
      (fun p member => (keys p member).1) literals key
  · intro f member
    rw [declaredFields_connectionLines declarable] at member
    obtain ⟨p, inside, rfl⟩ := List.mem_map.mp member
    exact isRawLiteral_tag p.type (keys p inside).2

/-- The file of a connection is written so that its key fits the fields of its data, which are in the
order of their names, and the helper. It is read that way too if no text copied into it as it is
has a break or ends a raw string. -/
theorem key_fits_file (ok : spec.enrich = .ok enriched) (path : Option String) :
    ∃ text, Template.connection.render { spec := some enriched } path = .ok text ∧
      Section.Ordered spec.connection enriched.connection ∧
      KeyFits enriched.connection.names (connectionLines enriched) enriched.connectionKey ∧
      (spec.Unbroken →
        Go.lines text = connectionLines enriched ∧
        KeyFits enriched.connection.names (Go.lines text) enriched.connectionKey ∧
        ∀ f ∈ Go.declaredFields "Data" (Go.lines text), Go.IsRawLiteral f.tag) := by
  have becomes := enriched_of_ok ok
  have named : ∀ e ∈ enriched.connection.entries, e.2.name = Naming.upperCamel e.1 := by
    rintro ⟨name, p⟩ entry
    obtain ⟨_, _, own⟩ := becomes.connection.exists_of_mem entry
    exact own.name
  have fits := keyFits_connectionLines becomes.connection.declarable named (derived_of_ok ok).2
  refine ⟨_, Template.render_of_body (Template.connectionBody_lines rfl) path, becomes.ordered.2.2.1,
    fits, fun unbroken => ?_⟩
  obtain ⟨single, tags⟩ := unbroken_of_ok ok unbroken
  have same := Go.lines_unlines single
  rw [same]
  exact ⟨rfl, fits, tags⟩

def mixedTexts : Spec where
  name := "db"
  connection := ⟨[("user", { type := "password" }), ("host", { type := "string", nullable := true }),
    ("port", { type := "int" })], by decide⟩

def mixedTextsEnriched : Spec :=
  { mixedTexts with
    connection :=
      ⟨[("host", { rawName := "host", name := "Host", type := "string", internalType := "string",
                   nullable := true }),
        ("port", { rawName := "port", name := "Port", type := "int", internalType := "int" }),
        ("user", { rawName := "user", name := "User", type := "string", internalType := "string" })],
        by decide⟩
    connectionKey := "stringValue(c.Host) + c.User"
    http := ⟨10001, 2, 2⟩ }

theorem key_fits_file_mixedTexts :
    mixedTexts.enrich = .ok mixedTextsEnriched ∧ mixedTexts.Unbroken ∧
      ∃ text, Template.connection.render { spec := some mixedTextsEnriched } none = .ok text ∧
        Go.lines text = connectionLines mixedTextsEnriched ∧
        KeyFits ["host", "port", "user"] (Go.lines text) "stringValue(c.Host) + c.User" ∧
        ∀ f ∈ Go.declaredFields "Data" (Go.lines text), Go.IsRawLiteral f.tag := by
  have ok : mixedTexts.enrich = .ok mixedTextsEnriched := rfl
  have unbroken : mixedTexts.Unbroken := ⟨by decide, by decide, by decide⟩
  obtain ⟨text, rendered, _, _, reads⟩ := key_fits_file ok none
  exact ⟨ok, unbroken, text, rendered, reads unbroken⟩

/-- A connection whose only parameter has the end of a raw string and a break in its name. -/
def intruding : Spec where
  name := "db"
  connection := ⟨[("x\x60\n\tEvil string \x60y", { type := "int" })], by decide⟩

def intrudingEnriched : Spec :=
  { intruding with
    connection :=
      ⟨[("x\x60\n\tEvil string \x60y",
        { rawName := "x\x60\n\tEvil string \x60y", name := "XEvilStringY", type := "int",
          internalType := "int" })], by decide⟩
    connectionKey := "\"\""
    http := ⟨10001, 2, 2⟩ }

def linesBefore : List String :=
  ["// Code generated by plugspec from the db connection. DO NOT EDIT.", "", "package connection", "",
   "// Data is the connection of the db plugin", "type Data struct \x7b"]

def linesAfter : List String :=
  ["\x7d", "", "// Key identifies this connection in the connection cache",
   "func (c *Data) Key() string \x7b", "\treturn \"\"", "\x7d"]

/-- What follows a break in a name is read as a field of its own. -/
theorem not_key_fits_file :
    ¬ ∀ (spec enriched : Spec) (path : Option String) (text : String), spec.enrich = .ok enriched →
      Template.connection.render { spec := some enriched } path = .ok text →
        KeyFits enriched.connection.names (Go.lines text) enriched.connectionKey := by
  intro fits
  have fit := fits intruding intrudingEnriched none _ rfl
    (Template.render_of_body (Template.connectionBody_lines rfl) none)
  have none_ := fit.literal.mp rfl
  have written : connectionLines intrudingEnriched =
      linesBefore ++ ("\tXEvilStringY int \x60json:\"x\x60" ++ "\n" ++
        "\tEvil string \x60y,omitempty\"\x60") :: linesAfter := by decide +kernel
  rw [written, Go.lines_unlines_broken (by decide +kernel)] at none_
  exact absurd none_ (by decide +kernel)

end Spec

end PluginCompiler
