import PluginCompiler.Proofs.Go.Reading
import PluginCompiler.Proofs.Json.Characters

/-! The lines of fields and constants read back. A field is read as it was declared as long as no
blank is in its name or type, and a constant is read by its name. -/

set_option autoImplicit false

namespace PluginCompiler

open Go
open Naming (IsWord)

variable {name type tag start owner line : String}

namespace Go

theorem blank_not_mem (word : IsWord name) : ' ' ∉ name.toList := word.not_mem (by decide)

theorem field?_declaration (word : IsWord name) (typed : ' ' ∉ type.toList)
    (chars : line.toList = ('\t' :: name.toList) ++ ' ' :: (type.toList ++ ' ' :: tag.toList)) :
    field? line = some ⟨name, type, tag⟩ := by
  have first : ' ' ∉ '\t' :: name.toList := by
    simp [blank_not_mem word]
  have noComment : name.toList ≠ ['/', '/'] := by
    intro same
    exact word.not_mem (c := '/') (by decide) (by simp [same])
  rw [field?, pieces, chars, List.splitOn_append_cons_self_of_not_mem first,
    List.splitOn_append_cons_self_of_not_mem typed]
  simp [noComment, List.intercalate_splitOn]

theorem field?_comment (text : List Char) (chars : line.toList = ['\t', '/', '/'] ++ ' ' :: text) :
    field? line = none := by
  have first : ' ' ∉ ['\t', '/', '/'] := by decide
  rw [field?, pieces, chars, List.splitOn_append_cons_self_of_not_mem first]
  cases text.splitOn ' ' with
  | nil => rfl
  | cons type tag => rfl

theorem constantName?_definition (word : IsWord name) (text : List Char)
    (chars : line.toList = ('\t' :: name.toList) ++ ' ' :: (['='] ++ ' ' :: text)) :
    constantName? line = some name := by
  have first : ' ' ∉ '\t' :: name.toList := by
    simp [blank_not_mem word]
  have second : ' ' ∉ ['='] := by decide
  rw [constantName?, pieces, chars, List.splitOn_append_cons_self_of_not_mem first,
    List.splitOn_append_cons_self_of_not_mem second]
  simp

/-- A comment is no definition, since no word is the sign of a definition. -/
theorem constantName?_comment (word : IsWord name) (text : List Char)
    (chars : line.toList = ['\t', '/', '/'] ++ ' ' :: (name.toList ++ ' ' :: text)) :
    constantName? line = none := by
  have first : ' ' ∉ ['\t', '/', '/'] := by decide
  have noSign : name.toList ≠ ['='] := by
    intro same
    exact word.not_mem (c := '=') (by decide) (by simp [same])
  rw [constantName?, pieces, chars, List.splitOn_append_cons_self_of_not_mem first,
    List.splitOn_append_cons_self_of_not_mem (blank_not_mem word)]
  simp [noSign]

end Go

namespace Emit

def pointerMark (p : Parameter) : String := if p.nullable then "*" else ""

def declared (type : String) (p : Parameter) : Field where
  name := p.name
  type := pointerMark p ++ type
  tag := rawQuoted ("json:" ++ quoted (p.rawName ++ if p.required then "" else ",omitempty"))

def fieldNote (p : Parameter) : List String :=
  match p.description with
  | some text => if text = "" then [] else ["// " ++ p.name ++ " " ++ Go.comment text]
  | none => []

def declaration (type : String) (p : Parameter) : String :=
  p.name ++ " " ++ pointerMark p ++ type ++ " " ++ (declared type p).tag

theorem field_eq (type : String) (p : Parameter) : field type p = fieldNote p ++ [declaration type p] :=
  rfl

variable {p : Parameter} {literals : List EnumLiteral}

theorem field?_of_declaration (word : IsWord p.name) (typed : ' ' ∉ type.toList) :
    field? ("\t" ++ declaration type p) = some (declared type p) := by
  have pointed : ' ' ∉ (pointerMark p ++ type).toList := by
    rw [pointerMark]
    split <;> simp [typed]
  exact field?_declaration word pointed (by simp [declaration, declared])

theorem fields_of_field (word : IsWord p.name) (typed : ' ' ∉ type.toList) :
    (indent (field type p)).filterMap field? = [declared type p] := by
  have noted (text : String) : field? ("\t" ++ ("// " ++ p.name ++ " " ++ text)) = none :=
    field?_comment (p.name ++ " " ++ text).toList (by simp)
  rw [field_eq, fieldNote]
  split
  · split
    · simp [indent, field?_of_declaration word typed]
    · simp [indent, field?_of_declaration word typed, noted]
  · simp [indent, field?_of_declaration word typed]

theorem fields_of_section {s : Section Parameter}
    (readable : ∀ p ∈ s.values, IsWord p.name ∧ ' ' ∉ p.type.toList) :
    (indent (fields s)).filterMap field? = s.values.map fun p => declared p.type p := by
  rw [fields, indent, List.map_flatMap, List.filterMap_flatMap, ← List.flatMap_singleton' (List.map _ _),
    List.flatMap_map]
  exact List.flatMap_congr fun p member => fields_of_field (readable p member).1 (readable p member).2

theorem constantNames_of_constants (word : ∀ l ∈ literals, IsWord (start ++ l.name)) :
    (indent (constants start owner literals)).filterMap constantName? =
      literals.map fun l => start ++ l.name := by
  induction literals with
  | nil => rfl
  | cons l rest ih =>
    obtain ⟨first, later⟩ := List.forall_mem_cons.mp word
    have comment : constantName?
        ("\t" ++ ("// " ++ start ++ l.name ++ " is an allowed value of " ++ owner)) = none :=
      constantName?_comment first ("is an allowed value of " ++ owner).toList (by simp)
    have definition : constantName? ("\t" ++ (start ++ l.name ++ " = " ++ Go.constant l.literal)) =
        some (start ++ l.name) :=
      constantName?_definition first (Go.constant l.literal).toList (by simp)
    have further := ih later
    rw [constants, indent] at further ⊢
    simp [comment, definition, further]

/-! ## Properties of lines -/

/-- All lines have a property. -/
def Each (P : String → Prop) (ls : List String) : Prop := ∀ l ∈ ls, P l

variable {P : String → Prop} {ls more : List String} {l head : String}

instance [DecidablePred P] : DecidablePred (Each P) :=
  fun ls => inferInstanceAs (Decidable (∀ l ∈ ls, P l))

@[simp] theorem each_nil : Each P [] := by
  simp [Each]

@[simp] theorem each_cons : Each P (l :: ls) ↔ P l ∧ Each P ls := by
  simp [Each]

@[simp] theorem each_append : Each P (ls ++ more) ↔ Each P ls ∧ Each P more := by
  simp [Each, or_imp, forall_and]

theorem each_flatMap {α : Type} {as : List α} {f : α → List String} :
    Each P (as.flatMap f) ↔ ∀ a ∈ as, Each P (f a) := by
  simp only [Each, List.mem_flatMap]
  exact ⟨fun all a member l inside => all l ⟨a, member, inside⟩,
    fun all l ⟨a, member, inside⟩ => all a member l inside⟩

theorem each_map {α : Type} {as : List α} {f : α → String} :
    Each P (as.map f) ↔ ∀ a ∈ as, P (f a) :=
  List.forall_mem_map

theorem each_indent (tab : ∀ l, P ("\t" ++ l) ↔ P l) : Each P (indent ls) ↔ Each P ls := by
  rw [indent, each_map]
  exact forall₂_congr fun l _ => tab l

theorem each_braces :
    Each P (braces head ls) ↔ P (head ++ " \x7b") ∧ Each P (indent ls) ∧ P "\x7d" := by
  simp [braces_eq]

theorem each_parens : Each P (parens head ls) ↔ P (head ++ " (") ∧ Each P (indent ls) ∧ P ")" := by
  simp [parens_eq]

theorem each_apart (empty : P "") : Each P (apart ls) ↔ Each P ls := by
  cases ls with
  | nil => simp [apart]
  | cons l ls => simp [apart, empty]

theorem each_importBlock {paths : List String} (empty : P "") (framed : P "import (" ∧ P ")") :
    Each P (importBlock paths) ↔ Each P (indent (paths.map quoted)) := by
  rw [importBlock]
  split
  · next none_ => simp [List.isEmpty_iff.mp none_, indent]
  · rw [each_apart empty, each_parens]
    exact ⟨fun each => each.2.1, fun each => ⟨framed.1, each, framed.2⟩⟩

theorem each_constantBlock (empty : P "") (framed : P "const (" ∧ P ")") :
    Each P (constantBlock ls) ↔ Each P (indent ls) := by
  rw [constantBlock]
  split
  · next none_ => simp [List.isEmpty_iff.mp none_, indent]
  · rw [each_apart empty, each_parens]
    exact ⟨fun each => each.2.1, fun each => ⟨framed.1, each, framed.2⟩⟩

/-! ## How lines start -/

variable {c : Char}

theorem lead_ne {d : Char} {cs : List Char} (own : lead l = some d) (member : d ∈ cs) (other : c ∉ cs) :
    lead l ≠ some c := by
  intro same
  rw [own] at same
  exact other (Option.some.inj same ▸ member)

theorem lead_empty_ne : lead "" ≠ some c := nofun

theorem lead_literal_ne {d : Char} {cs : List Char} (other : d ≠ c) :
    lead (String.ofList (d :: cs)) ≠ some c := by
  rw [lead_literal]
  exact fun same => other (Option.some.inj same)

theorem lead_literal_append_ne {d : Char} {cs : List Char} {s : String} (other : d ≠ c) :
    lead (String.ofList (d :: cs) ++ s) ≠ some c := by
  rw [lead_append (lead_literal d cs)]
  exact fun same => other (Option.some.inj same)

theorem clear_cons_literal {d : Char} {cs : List Char} (other : d ≠ c)
    (rest : Each (lead · ≠ some c) ls) : Each (lead · ≠ some c) (String.ofList (d :: cs) :: ls) :=
  each_cons.mpr ⟨lead_literal_ne other, rest⟩

theorem clear_cons_empty (rest : Each (lead · ≠ some c) ls) : Each (lead · ≠ some c) ("" :: ls) :=
  each_cons.mpr ⟨lead_empty_ne, rest⟩

theorem clear_note (other : '/' ≠ c) (own : lead l = some '/') : Each (lead · ≠ some c) ["", l] := by
  rw [each_cons, each_cons, own]
  exact ⟨lead_empty_ne, fun same => other (Option.some.inj same), each_nil⟩

theorem clear_ownedNote (other : '/' ≠ c) : Each (lead · ≠ some c) ownedNote :=
  clear_cons_literal other (clear_cons_literal other (clear_cons_literal other each_nil))

theorem clear_indent (other : c ∉ ['\t']) : Each (lead · ≠ some c) (indent ls) :=
  fun _ member => lead_ne (lead_of_mem_indent member) List.mem_cons_self other

theorem Each.not_mem (clear : Each (lead · ≠ some c) ls) (own : lead head = some c) : head ∉ ls :=
  fun member => clear head member own

theorem clear_braces (other : c ∉ ['\t', '\x7d']) :
    Each (lead · ≠ some c) (braces head ls) ↔ lead (head ++ " \x7b") ≠ some c := by
  rw [List.mem_cons, not_or] at other
  rw [each_braces, and_iff_left]
  exact ⟨clear_indent (by simpa using other.1), lead_ne rfl List.mem_cons_self other.2⟩

theorem clear_parens (other : c ∉ ['\t', ')']) :
    Each (lead · ≠ some c) (parens head ls) ↔ lead (head ++ " (") ≠ some c := by
  rw [List.mem_cons, not_or] at other
  rw [each_parens, and_iff_left]
  exact ⟨clear_indent (by simpa using other.1), lead_ne rfl List.mem_cons_self other.2⟩

theorem clear_importBlock (other : c ∉ ['i', '\t', ')']) (paths : List String) :
    Each (lead · ≠ some c) (importBlock paths) := by
  have opening : lead "import (" ≠ some c := lead_ne (d := 'i') rfl (by simp) other
  have closing : lead ")" ≠ some c := lead_ne (d := ')') rfl (by simp) other
  rw [each_importBlock lead_empty_ne ⟨opening, closing⟩]
  exact clear_indent fun member => other (by simp_all)

theorem clear_constantBlock (other : c ∉ ['c', '\t', ')']) :
    Each (lead · ≠ some c) (constantBlock ls) := by
  have opening : lead "const (" ≠ some c := lead_ne (d := 'c') rfl (by simp) other
  have closing : lead ")" ≠ some c := lead_ne (d := ')') rfl (by simp) other
  rw [each_constantBlock lead_empty_ne ⟨opening, closing⟩]
  exact clear_indent fun member => other (by simp_all)

theorem clear_structType (other : c ∉ ['t', '\t', '\x7d']) (name : String) (body : List String) :
    Each (Go.lead · ≠ some c) (structType name body) := by
  have own : lead ("type " ++ name ++ " struct" ++ " \x7b") = some 't' := by simp [lead]
  rw [structType, clear_braces (fun member => other (List.mem_cons_of_mem _ member))]
  exact lead_ne own List.mem_cons_self other

theorem lead_generatedFrom (origin : String) : lead (generatedFrom origin) = some '/' := by
  unfold generatedFrom
  simp [lead]

theorem lead_dataNote (spec : Spec) :
    lead ("// Data is the connection of the " ++ spec.name ++ " plugin") = some '/' :=
  lead_append (lead_append (lead_literal _ _) _) _

theorem clear_header (other : c ∉ ['/', 'p', 'i', '\t', ')']) (origin : String) (paths : List String)
    {package note : String} (first : lead package = some 'p') (last : lead note = some '/') :
    Each (Go.lead · ≠ some c) ([generatedFrom origin, "", package] ++ importBlock paths ++ ["", note]) := by
  have comment (l : String) (own : lead l = some '/') : lead l ≠ some c :=
    lead_ne own List.mem_cons_self other
  have package_ : lead package ≠ some c := lead_ne first (by simp) other
  have imports : Each (Go.lead · ≠ some c) (importBlock paths) :=
    clear_importBlock (fun member => other (by simp_all)) paths
  simp [comment _ (lead_generatedFrom origin), comment _ last, package_, imports, lead_empty_ne]

@[simp] theorem quoted_inj {s t : String} : quoted s = quoted t ↔ s = t := by
  rw [quoted, quoted, String.append_left_inj, String.append_right_inj]

/-! ## Lines without breaks -/

theorem isLine_indent (l : String) : IsLine ("\t" ++ l) ↔ IsLine l := by
  have tab : IsLine "\t" := by decide
  simp [tab]

@[simp] theorem single_indent : Each IsLine (indent ls) ↔ Each IsLine ls := each_indent isLine_indent

@[simp] theorem single_braces : Each IsLine (braces head ls) ↔ IsLine head ∧ Each IsLine ls := by
  have opening : IsLine " \x7b" := isLine_literal rfl
  have closing : IsLine "\x7d" := isLine_literal rfl
  simp [each_braces, opening, closing]

@[simp] theorem single_structType :
    Each IsLine (structType name ls) ↔ IsLine name ∧ Each IsLine ls := by
  have opening : IsLine "type " := isLine_literal rfl
  have closing : IsLine " struct" := isLine_literal rfl
  simp [structType, opening, closing]

@[simp] theorem single_parens : Each IsLine (parens head ls) ↔ IsLine head ∧ Each IsLine ls := by
  have opening : IsLine " (" := isLine_literal rfl
  have closing : IsLine ")" := isLine_literal rfl
  simp [each_parens, opening, closing]

@[simp] theorem isLine_generatedFrom {origin : String} :
    IsLine (generatedFrom origin) ↔ IsLine origin := by
  have front : IsLine "// Code generated by plugspec from the " := isLine_literal rfl
  have back : IsLine ". DO NOT EDIT." := isLine_literal rfl
  unfold generatedFrom
  simp [front, back]

@[simp] theorem isLine_quoted {s : String} : IsLine (quoted s) ↔ IsLine s := by
  have quote : IsLine "\"" := isLine_literal rfl
  unfold quoted
  simp [quote]

@[simp] theorem isLine_rawQuoted {s : String} : IsLine (rawQuoted s) ↔ IsLine s := by
  have quote : IsLine "\x60" := isLine_literal rfl
  unfold rawQuoted
  simp [quote]

theorem single_importBlock {paths : List String} (single : Each IsLine paths) :
    Each IsLine (importBlock paths) := by
  rw [each_importBlock (by decide) (by decide), single_indent, each_map]
  exact fun path member => isLine_quoted.mpr (single path member)

theorem single_typeImports {isInternal : Bool} {root : String} {expressions : List String}
    (single : IsLine root) : Each IsLine (Go.typeImports isInternal root expressions) := by
  have types : IsLine (Go.typesPath root) := by
    rw [Go.typesPath, Go.isLine_append, Go.isLine_append]
    exact ⟨⟨single, by decide⟩, by decide⟩
  have time : IsLine "time" := by decide
  rw [Go.typeImports]
  split_ifs <;> simp [types, time]

@[simp] theorem single_constantBlock : Each IsLine (constantBlock ls) ↔ Each IsLine ls :=
  (each_constantBlock (by decide) (by decide)).trans single_indent

theorem isLine_comment (text : String) : IsLine (Go.comment text) := by
  intro member
  rcases Text.mem_of_mem_intercalate member with between | ⟨word, inside, found⟩
  · exact absurd between (by decide)
  · exact absurd (Text.not_isBlank_of_mem_words inside _ found) (by decide)

theorem isLine_of_clean {s : String} (clean : Json.Clean s.toList) : IsLine s :=
  fun member => absurd (clean _ member) (by decide)

theorem isLine_constant {literal : String} (single : IsLine literal) : IsLine (Go.constant literal) := by
  rw [Go.constant]
  split
  · split
    · exact isLine_of_clean (Json.clean_quote literal)
    · rw [isLine_append, isLine_append]
      exact ⟨⟨by decide, single⟩, by decide⟩
  · exact single

theorem isLine_declaration (own : IsLine p.rawName) (word : IsWord p.name) (typed : IsLine type) :
    IsLine (declaration type p) := by
  have pointer : IsLine (pointerMark p) := by
    rw [pointerMark]
    split <;> decide
  have option : IsLine (if p.required then "" else ",omitempty") := by
    split <;> decide
  simp only [declaration, declared, rawQuoted, quoted, isLine_append, isLine_of_isWord word, pointer,
    typed, own, option, true_and, and_true]
  decide

theorem single_field (own : IsLine p.rawName) (word : IsWord p.name) (typed : IsLine type) :
    Each IsLine (field type p) := by
  have note : Each IsLine (fieldNote p) := by
    rw [fieldNote]
    split
    · split
      · exact each_nil
      · simp only [each_cons, each_nil, isLine_append, isLine_of_isWord word, isLine_comment,
          and_true]
        decide
    · exact each_nil
  rw [field_eq, each_append, each_cons]
  exact ⟨note, isLine_declaration own word typed, each_nil⟩

theorem single_constants (heir : IsLine owner) (words : ∀ l ∈ literals, IsWord (start ++ l.name))
    (single : ∀ l ∈ literals, IsLine l.literal) : Each IsLine (constants start owner literals) := by
  refine each_flatMap.mpr fun l member => ?_
  have name := isLine_of_isWord (words l member)
  rw [isLine_append] at name
  simp only [each_cons, each_nil, isLine_append, name, heir, isLine_constant (single l member)]
  decide

end Emit

end PluginCompiler
