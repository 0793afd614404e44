import PluginCompiler.Proofs.Generate.Preview
import PluginCompiler.Proofs.Spec.Parameters
import PluginCompiler.Proofs.Table.Plain
import PluginCompiler.Request

/-! The cells of tables about a spec. Identifiers, types, allowed values and counts are always cells; what
a table copies from the document as it is need not be one. -/

set_option autoImplicit false

namespace PluginCompiler

open Table (IsCell)
open Naming (IsWord)
open Go (IsLine)

namespace Table

variable {s t : String} {c : Char}

theorem isCell_of_forall {p : Char → Bool} (all : ∀ c ∈ s.toList, p c = true) (tab : p '\t' = false)
    (break_ : p '\n' = false) : IsCell s where
  tabless member := by
    rw [all _ member] at tab
    cases tab
  line member := by
    rw [all _ member] at break_
    cases break_

theorem isCell_of_isWord (word : IsWord s) : IsCell s := isCell_of_forall word rfl rfl

theorem isCell_of_clean (clean : Json.Clean s.toList) : IsCell s where
  tabless member := absurd (clean _ member) (by decide)
  line member := absurd (clean _ member) (by decide)

@[simp] theorem isCell_append : IsCell (s ++ t) ↔ IsCell s ∧ IsCell t := by
  constructor
  · rintro ⟨tabless, line⟩
    simp only [String.toList_append, List.mem_append, not_or, IsLine] at tabless line
    exact ⟨⟨tabless.1, line.1⟩, tabless.2, line.2⟩
  · rintro ⟨⟨tabless, line⟩, tabless', line'⟩
    exact ⟨by simp [tabless, tabless'], Go.isLine_append.mpr ⟨line, line'⟩⟩

theorem isCell_iff_of_mem {parts : List String}
    (tab : '\t' ∈ s.toList ↔ ∃ part ∈ parts, '\t' ∈ part.toList)
    (break_ : '\n' ∈ s.toList ↔ ∃ part ∈ parts, '\n' ∈ part.toList) :
    IsCell s ↔ ∀ part ∈ parts, IsCell part := by
  constructor
  · rintro ⟨tabless, line⟩ part member
    exact ⟨fun inside => tabless (tab.mpr ⟨part, member, inside⟩),
      fun inside => line (break_.mpr ⟨part, member, inside⟩)⟩
  · intro whole
    constructor
    · intro inside
      obtain ⟨part, member, own⟩ := tab.mp inside
      exact (whole part member).tabless own
    · intro inside
      obtain ⟨part, member, own⟩ := break_.mp inside
      exact (whole part member).line own

theorem isCell_intercalate {sep : String} (between : IsCell sep) {parts : List String} :
    IsCell (sep.intercalate parts) ↔ ∀ part ∈ parts, IsCell part :=
  isCell_iff_of_mem (Text.mem_intercalate_iff between.tabless parts)
    (Text.mem_intercalate_iff between.line parts)

@[simp] theorem isCell_orAbsent : IsCell (Overview.orAbsent s) ↔ IsCell s := by
  rw [Overview.orAbsent]
  split
  · next empty =>
    subst empty
    exact iff_of_true (by decide) (by decide)
  · rfl

@[simp] theorem isCell_yesIf (b : Bool) : IsCell (Overview.yesIf b) := by
  cases b <;> decide

theorem isCell_nat (n : Nat) : IsCell (toString n) := by
  have same : toString n = toString (n : Int) := rfl
  rw [same]
  exact isCell_of_clean (Json.clean_toString n)

theorem isCell_int (n : Int) : IsCell (toString n) := isCell_of_clean (Json.clean_toString n)

/-- Rows that have cells, and that are read back exactly if some texts are cells. -/
structure Copies (rows : List (List String)) (texts : List String) : Prop where
  filled : ∀ row ∈ rows, row ≠ []
  cells : (∀ row ∈ rows, ∀ s ∈ row, IsCell s) ↔ ∀ s ∈ texts, IsCell s

theorem copies_row {row texts : List String} (filled : row ≠ [])
    (cells : (∀ s ∈ row, IsCell s) ↔ ∀ s ∈ texts, IsCell s) : Copies [row] texts where
  filled := by simpa using filled
  cells := by simpa using cells

theorem Copies.append {rows rows' : List (List String)} {texts texts' : List String}
    (first : Copies rows texts) (rest : Copies rows' texts') :
    Copies (rows ++ rows') (texts ++ texts') where
  filled := List.forall_mem_append.mpr ⟨first.filled, rest.filled⟩
  cells := by rw [List.forall_mem_append, List.forall_mem_append, first.cells, rest.cells]

theorem copies_flatMap {α : Type} {as : List α} {rows : α → List (List String)} {texts : α → List String}
    (each : ∀ a ∈ as, Copies (rows a) (texts a)) : Copies (as.flatMap rows) (as.flatMap texts) := by
  induction as with
  | nil => exact ⟨by simp, by simp⟩
  | cons a as ih =>
    rw [List.flatMap_cons, List.flatMap_cons]
    exact (each a List.mem_cons_self).append (ih fun b member => each b (List.mem_cons_of_mem a member))

theorem Copies.recovers_iff {t : Table} {texts : List String} (copies : Copies t.rows texts)
    (titled : t.headers ≠ []) (plain : ∀ s ∈ t.headers, IsCell s) :
    t.Recovers t.plainText ↔ ∀ s ∈ texts, IsCell s := by
  rw [recovers_plainText_iff (List.forall_mem_cons.mpr ⟨titled, copies.filled⟩), List.forall_mem_cons,
    and_iff_right plain, copies.cells]

theorem Copies.column {rows : List (List String)} {texts : List String} (copies : Copies rows texts)
    {s : String} (own : IsCell s) : Copies (rows.map (s :: ·)) texts where
  filled := by simp
  cells := by
    rw [← copies.cells]
    simp [own]

theorem Copies.congr {rows : List (List String)} {texts texts' : List String} (copies : Copies rows texts)
    (same : ∀ s, s ∈ texts ↔ s ∈ texts') : Copies rows texts' where
  filled := copies.filled
  cells := by
    rw [copies.cells]
    exact forall_congr' fun s => imp_congr_left (same s)

end Table

structure Parameter.Tidy (p : Parameter) : Prop where
  name : IsCell p.name
  type : IsCell p.type
  internalType : IsCell p.internalType
  literals : ∀ l ∈ p.enumLiterals, IsCell l.literal

variable {spec enriched : Spec} {p : Parameter} {ps : Section Parameter} {h : Handler} {t : CustomType}
  {section_ : String}

theorem Spec.tidy_of_ok (ok : spec.enrich = .ok enriched) (member : p ∈ enriched.parameters) : p.Tidy := by
  have derived := derived_parameter_of_ok ok member
  exact {
    name := Table.isCell_of_isWord derived.isWord_name
    type := Table.isCell_of_forall derived.isTypeChar rfl rfl
    internalType := Table.isCell_of_forall derived.isTypeChar_internal rfl rfl
    literals := fun _ allowed => Table.isCell_of_clean (clean_literal_of_ok ok member allowed) }

theorem Parameter.Tidy.copies_row (tidy : p.Tidy) (fixed : IsCell section_) :
    Table.Copies [p.row section_] [p.rawName] := by
  have allowed : IsCell (", ".intercalate (p.enumLiterals.map (·.literal))) :=
    (Table.isCell_intercalate (by decide)).mpr (by simpa using tidy.literals)
  apply Table.copies_row
  · simp [row]
  · simp [row, fixed, tidy.name, tidy.type, allowed]

theorem copies_sectionRows (tidy : ∀ p ∈ ps.values, p.Tidy) (fixed : IsCell section_) :
    Table.Copies (sectionRows section_ ps) (ps.values.map Parameter.rawName) := by
  have rows : sectionRows section_ ps = ps.values.flatMap fun p => [p.row section_] := by
    rw [← List.map_eq_flatMap, Section.values, List.map_map]
    rfl
  rw [rows, List.map_eq_flatMap]
  exact Table.copies_flatMap fun p member => (tidy p member).copies_row fixed

theorem Handler.copies_rows (name : IsCell h.name) (tidy : ∀ p ∈ h.parameters, p.Tidy) :
    Table.Copies h.rows (h.parameters.map Parameter.rawName) := by
  have input : Table.Copies (sectionRows "input" h.input) (h.input.values.map Parameter.rawName) :=
    copies_sectionRows (fun p member => tidy p (List.mem_append_left _ member)) (by decide)
  have output : Table.Copies (sectionRows "output" h.output) (h.output.values.map Parameter.rawName) :=
    copies_sectionRows (fun p member => tidy p (List.mem_append_right _ member)) (by decide)
  have copies : Table.Copies (sectionRows "input" h.input ++ sectionRows "output" h.output)
      (h.parameters.map Parameter.rawName) := by
    rw [parameters, List.map_append]
    exact input.append output
  rw [rows]
  split
  · next none_ =>
    rw [List.isEmpty_iff] at none_
    rw [none_] at copies
    apply Table.copies_row
    · simp
    · rw [← copies.cells]
      simp [name]
      decide
  · exact copies.column name

theorem CustomType.copies_rows (name : IsCell t.name) (tidy : ∀ p ∈ t.sortedFields, p.Tidy) :
    Table.Copies t.rows (t.sortedFields.map Parameter.rawName) := by
  rw [rows]
  split
  · next none_ =>
    rw [List.isEmpty_iff.mp none_]
    apply Table.copies_row
    · simp
    · simp [name]
      decide
  · rw [List.map_eq_flatMap, List.map_eq_flatMap]
    refine Table.copies_flatMap fun p member => ?_
    have own := tidy p member
    apply Table.copies_row
    · simp
    · simp [name, own.name, own.internalType]

/-- The texts of a spec that a view copies as they are. Of parameters it shows their names. -/
def Spec.copied (spec : Spec) : View → List String
  | .summary => spec.name :: (spec.title.toList ++ spec.version.toList ++ spec.vendor.toList ++
      spec.specVersion.toList ++ spec.tags ++ spec.description.toList)
  | .types => spec.customTypes.values.flatMap fun t => t.fields.names
  | .handlers kind => (spec.handlers kind).values.flatMap fun h => h.input.names ++ h.output.names
  | .connection => spec.connection.names

theorem copies_entry {label value : String} {texts : List String} (fixed : IsCell label)
    (cells : IsCell value ↔ ∀ s ∈ texts, IsCell s) : Table.Copies [[label, value]] texts := by
  apply Table.copies_row
  · simp
  · simpa [fixed] using cells

theorem isCell_optional (text : Option String) :
    IsCell (Overview.orAbsent (text.getD "")) ↔ ∀ s ∈ text.toList, IsCell s := by
  cases text with
  | none => exact iff_of_true (by decide) (by simp)
  | some s => simp

theorem copies_description (text : Option String) :
    Table.Copies (match text with
      | some text => if text = "" then [] else [["Description", text]]
      | none => []) text.toList := by
  cases text with
  | none => exact ⟨by simp, by simp⟩
  | some s =>
    dsimp only
    split
    · next empty =>
      subst empty
      exact ⟨by simp, iff_of_true (by simp) (by decide)⟩
    · exact copies_entry (by decide) (by simp)

theorem Spec.copies_summaryRows (spec : Spec) :
    Table.Copies spec.summaryRows (spec.copied .summary) := by
  have count (label : String) (fixed : IsCell label) (n : Nat) : Table.Copies [[label, toString n]] [] :=
    copies_entry fixed (iff_of_true (Table.isCell_nat n) (by simp))
  have optional (label : String) (fixed : IsCell label) (text : Option String) :
      Table.Copies [[label, Overview.orAbsent (text.getD "")]] text.toList :=
    copies_entry fixed (isCell_optional text)
  have name : Table.Copies [["Name", Overview.orAbsent spec.name]] [spec.name] :=
    copies_entry (by decide) (by simp)
  have tags : Table.Copies [["Tags", Overview.orAbsent (", ".intercalate spec.tags)]] spec.tags :=
    copies_entry (by decide) (Table.isCell_orAbsent.trans (Table.isCell_intercalate (by decide)))
  have port : Table.Copies [["HTTP port", toString spec.http.port]] [] :=
    copies_entry (by decide) (iff_of_true (Table.isCell_int _) (by simp))
  have timeouts : Table.Copies [["HTTP timeouts (read/write)",
      s!"{spec.http.readTimeout}s / {spec.http.writeTimeout}s"]] [] := by
    refine copies_entry (by decide) (iff_of_true ?_ (by simp))
    simp only [Table.isCell_append, Table.isCell_int, true_and]
    decide
  have all := name.append <| (optional "Title" (by decide) spec.title).append <|
    (optional "Version" (by decide) spec.version).append <|
    (optional "Vendor" (by decide) spec.vendor).append <|
    (optional "Spec version" (by decide) spec.specVersion).append <| tags.append <|
    (count "Types" (by decide) spec.customTypes.entries.length).append <|
    (count "Connection parameters" (by decide) spec.connection.entries.length).append <|
    (count "Actions" (by decide) spec.actions.entries.length).append <|
    (count "Triggers" (by decide) spec.triggers.entries.length).append <|
    port.append <| timeouts.append (copies_description spec.description)
  exact all.congr fun s => by simp [copied]

theorem Spec.copies_typesTable (ok : spec.enrich = .ok enriched) :
    Table.Copies enriched.typesTable.rows (enriched.copied .types) := by
  have rows : enriched.typesTable.rows = enriched.customTypes.values.flatMap CustomType.rows := by
    rw [Section.values, List.flatMap_map]
    rfl
  have each : Table.Copies enriched.typesTable.rows
      (enriched.customTypes.values.flatMap fun t => t.sortedFields.map Parameter.rawName) := by
    rw [rows]
    refine Table.copies_flatMap fun t member => CustomType.copies_rows ?_ fun p own => ?_
    · exact Table.isCell_of_isWord (customType_of_ok ok member).1
    · exact tidy_of_ok ok (mem_parameters_of_type member own)
  refine each.congr fun s => ?_
  simp only [copied, List.mem_flatMap]
  refine exists_congr fun t => and_congr_right fun member => ?_
  obtain ⟨⟨key, t⟩, entry, rfl⟩ := List.mem_map.mp member
  obtain ⟨_, _, sorted, _, _, becomes⟩ := enriched_type_of_ok ok entry
  rw [← becomes.rawNames, sorted, ((sortFields_perm _).map _).mem_iff]

theorem Spec.copies_handlersTable (ok : spec.enrich = .ok enriched) (kind : HandlerKind) :
    Table.Copies (enriched.handlersTable kind).rows (enriched.copied (.handlers kind)) := by
  have rows : (enriched.handlersTable kind).rows = (enriched.handlers kind).values.flatMap Handler.rows := by
    rw [Section.values, List.flatMap_map]
    cases kind <;> rfl
  rw [rows]
  refine Table.copies_flatMap fun h member => ?_
  have copies := Handler.copies_rows (Table.isCell_of_isWord (handler_of_ok ok member).1)
    fun p own => tidy_of_ok ok (mem_parameters_of_handler member own)
  obtain ⟨⟨key, h⟩, entry, rfl⟩ := List.mem_map.mp member
  obtain ⟨_, _, becomes⟩ := enriched_handler_of_ok ok entry
  rwa [Handler.parameters, List.map_append, becomes.input.rawNames, becomes.output.rawNames] at copies

theorem Spec.copies_connectionTable (ok : spec.enrich = .ok enriched) :
    Table.Copies enriched.connectionTable.rows (enriched.copied .connection) := by
  have copies : Table.Copies enriched.connectionTable.rows (enriched.connection.values.map Parameter.rawName) :=
    copies_sectionRows (fun p member => tidy_of_ok ok (mem_parameters_of_connection member)) (by decide)
  rwa [(enriched_of_ok ok).connection.rawNames] at copies

end PluginCompiler
