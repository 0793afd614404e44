import PluginCompiler.Proofs.Emit.Records
import PluginCompiler.Proofs.Go.Entries

/-! The bodies of generated declarations, line by line. A record has one field for each parameter, with a
comment if the parameter has a description, and the group of constants has one for each allowed value. -/

set_option autoImplicit false

namespace PluginCompiler.Emit

open Naming (IsWord)

variable {p : Parameter} {params : List Parameter} {s : Section Parameter} {h : Handler} {t : CustomType}
  {spec : Spec} {kind : HandlerKind} {start owner type : String} {l : EnumLiteral} {constants ls : List String}

def notes (p : Parameter) : List String :=
  match p.description with
  | some text => if text = "" then [] else [p.name ++ " " ++ Go.comment text]
  | none => []

def entry (type : String) (p : Parameter) : Go.Noted Go.Field := ⟨notes p, declared type p⟩

/-- What a parameter is in the record of a custom type. Descriptions of embedded types are left out. -/
def memberEntry (p : Parameter) : Go.Noted Go.Field :=
  if p.embed then ⟨[], declaredMember p⟩ else entry p.internalType p

theorem indent_field (type : String) (p : Parameter) :
    indent (field type p) = (notes p).map ("\t// " ++ ·) ++ ["\t" ++ declaration type p] := by
  have comment (text : String) : "\t" ++ ("// " ++ p.name ++ " " ++ text) =
      "\t// " ++ (p.name ++ " " ++ text) := String.toList_inj.mp (by simp)
  rw [field_eq, fieldNote, notes]
  cases p.description with
  | none => rfl
  | some text =>
    dsimp only
    split
    · rfl
    · simp [indent, comment]

theorem entries_field (word : IsWord p.name) (typed : ' ' ∉ type.toList) :
    Go.Entries Go.member? (indent (field type p)) [entry type p] := by
  have plain : Go.note? ("\t" ++ declaration type p) = none :=
    Go.note?_of_word word (pointerMark p ++ type ++ " " ++ (declared type p).tag).toList
      (by simp [declaration])
  have declares : Go.member? ("\t" ++ declaration type p) = some (declared type p) := by
    rw [Go.member?, field?_of_declaration word typed, Option.some_or]
  rw [indent_field]
  exact Go.Entries.single (e := entry type p) plain declares

theorem entries_fields (readable : ∀ p ∈ s.values, IsWord p.name ∧ ' ' ∉ p.type.toList) :
    Go.Entries Go.member? (indent (fields s)) (s.values.map fun p => entry p.type p) := by
  rw [fields, indent, List.map_flatMap, List.map_eq_flatMap]
  exact .flatMap fun p member => entries_field (readable p member).1 (readable p member).2

theorem entries_typeField (word : IsWord p.name)
    (typed : ∀ c ∈ p.internalType.toList, Go.GoType.isTypeChar c = true) :
    Go.Entries Go.member? (indent (typeField p)) [memberEntry p] := by
  have blank : ' ' ∉ p.internalType.toList := not_mem_of_typeChars typed (by decide)
  rw [typeField, memberEntry]
  split
  · next embed =>
    have slash : p.internalType.toList.head? ≠ some '/' := fun first =>
      not_mem_of_typeChars typed (by decide) (List.mem_of_mem_head? first)
    have plain : Go.note? ("\t" ++ p.internalType) = none := Go.note?_of_head (by simp) slash
    have declares : Go.member? ("\t" ++ p.internalType) = some (declaredMember p) := by
      rw [declaredMember, if_pos embed]
      exact Go.member?_of_embedded blank
    exact Go.Entries.single (e := ⟨[], declaredMember p⟩) plain declares
  · exact entries_field word blank

def constantEntry (start owner : String) (l : EnumLiteral) : Go.Noted Go.Constant where
  notes := [start ++ l.name ++ " is an allowed value of " ++ owner]
  item := ⟨start ++ l.name, Go.constant l.literal⟩

def constantEntries (start : String) (owner : Parameter → String) (params : List Parameter) :
    List (Go.Noted Go.Constant) :=
  params.flatMap fun p => p.enumLiterals.map (constantEntry start (owner p))

theorem entries_constant (word : IsWord (start ++ l.name)) :
    Go.Entries Go.constant? (indent ["// " ++ start ++ l.name ++ " is an allowed value of " ++ owner,
      start ++ l.name ++ " = " ++ Go.constant l.literal]) [constantEntry start owner l] := by
  have comment : "\t" ++ ("// " ++ start ++ l.name ++ " is an allowed value of " ++ owner) =
      "\t// " ++ (start ++ l.name ++ " is an allowed value of " ++ owner) :=
    String.toList_inj.mp (by simp)
  have plain : Go.note? ("\t" ++ (start ++ l.name ++ " = " ++ Go.constant l.literal)) = none :=
    Go.note?_of_word word ("= " ++ Go.constant l.literal).toList (by simp)
  rw [indent, List.map_cons, List.map_singleton, comment]
  exact Go.Entries.single (e := constantEntry start owner l) plain (Go.constant?_definition word)

theorem entries_constants {literals : List EnumLiteral} (words : ∀ l ∈ literals, IsWord (start ++ l.name)) :
    Go.Entries Go.constant? (indent (Emit.constants start owner literals))
      (literals.map (constantEntry start owner)) := by
  rw [Emit.constants, indent, List.map_flatMap, List.map_eq_flatMap]
  exact .flatMap fun l member => entries_constant (words l member)

theorem entries_parameterConstants {owner : Parameter → String}
    (words : ∀ p ∈ params, ∀ l ∈ p.enumLiterals, IsWord (start ++ l.name)) :
    Go.Entries Go.constant?
      (indent (params.flatMap fun p => Emit.constants start (owner p) p.enumLiterals))
      (constantEntries start owner params) := by
  rw [indent, List.map_flatMap, constantEntries]
  exact .flatMap fun p member => entries_constants (words p member)

theorem lines_ne_nil_iff {owner : Parameter → String} :
    params.flatMap (fun p => Emit.constants start (owner p) p.enumLiterals) ≠ [] ↔
      ∃ p ∈ params, p.enumLiterals ≠ [] := by
  have empty (owner : String) (literals : List EnumLiteral) :
      Emit.constants start owner literals = [] ↔ literals = [] := by
    cases literals <;> simp [Emit.constants]
  simp [List.flatMap_eq_nil_iff, empty]

theorem Grouped.constants_eq {entries : List (Go.Noted Go.Constant)} (grouped : Grouped constants ls)
    (written : Go.Entries Go.constant? (indent constants) entries) : Go.constants ls = some entries := by
  rw [Go.constants, grouped.enclosed_eq]
  exact Go.noted_eq_some.mpr written

theorem Grouped.mem_head_iff (grouped : Grouped constants ls) : "const (" ∈ ls ↔ constants ≠ [] := by
  rw [← List.count_pos_iff, grouped.count_head]
  cases constants <;> simp

theorem Grouped.count_head_le (grouped : Grouped constants ls) : ls.count "const (" ≤ 1 := by
  rw [grouped.count_head]
  split <;> decide

/-- Lines that declare sections of parameters: a record under a name for each of them, and the constants
of all in one group, which is there only if there are any. -/
structure Declares (records : List (String × Section Parameter)) (ls : List String) : Prop where
  members : ∀ r ∈ records, Go.members r.1 ls = some (r.2.values.map fun p => entry p.type p)
  constants : Go.constants ls =
    some (records.flatMap fun r => constantEntries r.1 Parameter.rawName r.2.values)
  group : "const (" ∈ ls ↔ ∃ r ∈ records, ∃ p ∈ r.2.values, p.enumLiterals ≠ []
  once : ls.count "const (" ≤ 1

structure DeclaresType (t : CustomType) (ls : List String) : Prop where
  members : Go.members t.name ls = some (t.sortedFields.map memberEntry)
  constants : Go.constants ls =
    some (constantEntries t.name (fun p => t.rawName ++ "." ++ p.rawName) t.sortedFields)
  group : "const (" ∈ ls ↔ ∃ p ∈ t.sortedFields, p.enumLiterals ≠ []
  once : ls.count "const (" ≤ 1
  followed : (∃ p ∈ t.sortedFields, p.enumLiterals ≠ []) →
    Go.following ("type " ++ t.name ++ " struct \x7b") "\x7d" ls =
      "" :: "const (" :: (Go.enclosed "const (" ")" ls ++ [")"])
  last : (∀ p ∈ t.sortedFields, p.enumLiterals = []) →
    Go.following ("type " ++ t.name ++ " struct \x7b") "\x7d" ls = []

theorem declares_of_grouped {records : List (String × Section Parameter)}
    (encloses : ∀ r ∈ records, Go.Encloses ("type " ++ r.1 ++ " struct") (fields r.2) ls)
    (grouped : Grouped (records.flatMap fun r => sectionConstants r.1 r.2) ls)
    (readable : ∀ r ∈ records, ∀ p ∈ r.2.values, IsWord p.name ∧ ' ' ∉ p.type.toList)
    (words : ∀ r ∈ records, ∀ p ∈ r.2.values, ∀ l ∈ p.enumLiterals, IsWord (r.1 ++ l.name)) :
    Declares records ls where
  members r member := by
    rw [Go.members, Go.recordHead_eq, (encloses r member).enclosed_eq]
    exact Go.noted_eq_some.mpr (entries_fields (readable r member))
  constants := by
    refine grouped.constants_eq ?_
    rw [indent, List.map_flatMap]
    exact .flatMap fun r member => entries_parameterConstants (words r member)
  group := by
    rw [grouped.mem_head_iff, Ne, List.flatMap_eq_nil_iff]
    simp only [not_forall, exists_prop]
    exact exists_congr fun r => and_congr_right fun _ => lines_ne_nil_iff
  once := grouped.count_head_le

theorem declares_handlerLines (kind : HandlerKind) (word : IsWord h.name)
    (readable : ∀ p ∈ h.parameters, IsWord p.name ∧ ' ' ∉ p.type.toList)
    (words : ∀ p ∈ h.parameters, ∀ l ∈ p.enumLiterals, IsWord l.name) :
    Declares [(h.name ++ "Input", h.input), (h.name ++ kind.outputSuffix, h.output)]
      (handlerLines kind h) := by
  have suffix : IsWord kind.outputSuffix := by cases kind <;> decide
  have input {p : Parameter} (member : p ∈ h.input.values) : p ∈ h.parameters :=
    List.mem_append_left _ member
  have output {p : Parameter} (member : p ∈ h.output.values) : p ∈ h.parameters :=
    List.mem_append_right _ member
  have grouped := grouped_handlerLines kind h
  refine declares_of_grouped ?_ (by simpa [handlerConstants] using grouped) ?_ ?_
  all_goals rw [List.forall_mem_cons, List.forall_mem_singleton]
  · exact ⟨encloses_input kind h, encloses_output kind h⟩
  · exact ⟨fun p member => readable p (input member), fun p member => readable p (output member)⟩
  · exact ⟨fun p member l literal => (word.append (by decide)).append (words p (input member) l literal),
      fun p member l literal => (word.append suffix).append (words p (output member) l literal)⟩

theorem declares_connectionLines
    (readable : ∀ p ∈ spec.connection.values, IsWord p.name ∧ ' ' ∉ p.type.toList)
    (words : ∀ p ∈ spec.connection.values, ∀ l ∈ p.enumLiterals, IsWord l.name) :
    Declares [("Data", spec.connection)] (connectionLines spec) := by
  have grouped := grouped_connectionLines spec
  refine declares_of_grouped ?_ (by simpa using grouped) ?_ ?_
  all_goals rw [List.forall_mem_singleton]
  · exact encloses_data spec
  · exact readable
  · exact fun p member l literal =>
      IsWord.append (by decide : IsWord "Data") (words p member l literal)

theorem following_typeLines (t : CustomType) (spec : Spec) :
    Go.following ("type " ++ t.name ++ " struct \x7b") "\x7d" (typeLines t spec) =
      constantBlock (typeConstants t) := by
  have within : "\x7d" ∉ indent (t.sortedFields.flatMap typeField) := Go.close_not_mem_indent _ (by decide)
  have own : Go.lead ("type " ++ t.name ++ " struct" ++ " \x7b") = some 't' := by simp [Go.lead]
  have split (front body block : List String) : front ++ structType t.name body ++ block =
      front ++ (("type " ++ t.name ++ " struct" ++ " \x7b") :: (indent body ++ "\x7d" :: block)) := by
    simp [structType, Go.braces_eq]
  unfold typeLines
  rw [Go.recordHead_eq, split]
  refine Go.following_append (Each.not_mem (c := 't') ?_ own) within
  exact clear_header (by decide) _ _ rfl (by simp [Go.lead])

theorem declaresType_typeLines (spec : Spec) (word : IsWord t.name)
    (readable : ∀ p ∈ t.sortedFields, IsWord p.name ∧
      ∀ c ∈ p.internalType.toList, Go.GoType.isTypeChar c = true)
    (words : ∀ p ∈ t.sortedFields, ∀ l ∈ p.enumLiterals, IsWord l.name) :
    DeclaresType t (typeLines t spec) where
  members := by
    rw [Go.members, Go.recordHead_eq, (encloses_members t spec).enclosed_eq, indent, List.map_flatMap]
    refine Go.noted_eq_some.mpr ?_
    rw [List.map_eq_flatMap (f := memberEntry)]
    exact .flatMap fun p member => entries_typeField (readable p member).1 (readable p member).2
  constants := (grouped_typeLines t spec).constants_eq <|
    entries_parameterConstants fun p member l literal => word.append (words p member l literal)
  group := (grouped_typeLines t spec).mem_head_iff.trans lines_ne_nil_iff
  once := (grouped_typeLines t spec).count_head_le
  followed some_ := by
    have filled : (typeConstants t).isEmpty = false :=
      List.isEmpty_eq_false_iff.mpr (lines_ne_nil_iff.mpr some_)
    rw [following_typeLines, (grouped_typeLines t spec).enclosed_eq, constantBlock, filled]
    simp [apart, Go.parens_eq]
  last none_ := by
    have empty : typeConstants t = [] := by
      by_contra filled
      obtain ⟨p, member, some_⟩ := lines_ne_nil_iff.mp filled
      exact some_ (none_ p member)
    rw [following_typeLines, empty]
    rfl

end PluginCompiler.Emit
