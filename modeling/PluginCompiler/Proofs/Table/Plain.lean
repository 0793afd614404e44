import PluginCompiler.Proofs.Go.Reading
import PluginCompiler.Table

/-! Plain tables read back: their lines, and what stands between the tabs of a line. A table is recovered
from its text exactly if none of its cells has a tab or a break. -/

set_option autoImplicit false

namespace PluginCompiler

theorem Text.mem_intercalate_iff {sep : String} {c : Char} (other : c ∉ sep.toList) (parts : List String) :
    c ∈ (sep.intercalate parts).toList ↔ ∃ part ∈ parts, c ∈ part.toList := by
  rw [String.toList_intercalate]
  induction parts with
  | nil => simp
  | cons first rest ih =>
    cases rest with
    | nil => simp [List.intercalate_singleton]
    | cons second rest =>
      rw [List.map_cons, List.map_cons, List.intercalate_cons_cons, List.mem_append, List.mem_append,
        ← List.map_cons, ih, List.exists_mem_cons_iff]
      simp [other]

namespace Table

open Go (IsLine)

def cells (line : String) : List String := (line.toList.splitOn '\t').map String.ofList

/-- A text has a line for each row of a table and one for its headers, each with its cells. -/
structure Recovers (t : Table) (text : String) : Prop where
  length : (Go.lines text).length = t.rows.length + 1
  cells : (Go.lines text).map cells = t.headers :: t.rows

/-- A text that stays one cell of one line. -/
structure IsCell (s : String) : Prop where
  tabless : '\t' ∉ s.toList
  line : IsLine s

instance (s : String) : Decidable (IsCell s) :=
  decidable_of_iff ('\t' ∉ s.toList ∧ IsLine s) ⟨fun ⟨tabless, line⟩ => ⟨tabless, line⟩,
    fun ⟨tabless, line⟩ => ⟨tabless, line⟩⟩

variable {s line : String} {row : List String} {t : Table}

theorem isLine_plainLine : IsLine (plainLine row) ↔ ∀ s ∈ row, IsLine s := by
  simp only [IsLine, plainLine, Text.mem_intercalate_iff (by decide : '\n' ∉ "\t".toList), not_exists,
    not_and]

theorem cells_plainLine (filled : row ≠ []) (tabless : ∀ s ∈ row, '\t' ∉ s.toList) :
    cells (plainLine row) = row := by
  have whole : ∀ cs ∈ row.map String.toList, '\t' ∉ cs := by
    simpa using tabless
  have chars : (plainLine row).toList = ['\t'].intercalate (row.map String.toList) :=
    String.toList_intercalate
  rw [cells, chars, List.splitOn_intercalate '\t' whole (by simpa using filled), List.map_map]
  simp

theorem plainLine_cells (line : String) : plainLine (cells line) = line := by
  rw [← String.toList_inj, plainLine, String.toList_intercalate, cells, List.map_map]
  simp [Function.comp_def, List.intercalate_splitOn]

theorem isCell_of_mem_cells (single : IsLine line) (member : s ∈ cells line) : IsCell s where
  tabless := by
    obtain ⟨cs, inside, rfl⟩ := List.mem_map.mp member
    rw [String.toList_ofList]
    exact Go.not_mem_of_mem_splitOn inside
  line := by
    rw [← plainLine_cells line, isLine_plainLine] at single
    exact single s member

def plainText (t : Table) : String := Emit.unlines t.plainLines

theorem recovers_of_cells (filled : ∀ row ∈ t.headers :: t.rows, row ≠ [])
    (whole : ∀ row ∈ t.headers :: t.rows, ∀ s ∈ row, IsCell s) : t.Recovers t.plainText := by
  have single : ∀ l ∈ t.plainLines, IsLine l := by
    intro l member
    obtain ⟨row, inside, rfl⟩ := List.mem_map.mp member
    exact isLine_plainLine.mpr fun s own => (whole row inside s own).line
  have read : Go.lines t.plainText = t.plainLines := Go.lines_unlines single
  constructor
  · simp [read, plainLines]
  · rw [read, plainLines, List.map_map]
    refine (List.map_congr_left fun row inside => ?_).trans (List.map_id _)
    exact cells_plainLine (filled row inside) fun s own => (whole row inside s own).tabless

theorem Recovers.isCell {text : String} (recovers : t.Recovers text) (inside : row ∈ t.headers :: t.rows)
    (member : s ∈ row) : IsCell s := by
  rw [← recovers.cells] at inside
  obtain ⟨l, read, rfl⟩ := List.mem_map.mp inside
  exact isCell_of_mem_cells (Go.isLine_of_mem_lines read) member

/-- A table whose rows have cells is recovered from its text exactly if these have no tab and no break. -/
theorem recovers_plainText_iff (filled : ∀ row ∈ t.headers :: t.rows, row ≠ []) :
    t.Recovers t.plainText ↔ ∀ row ∈ t.headers :: t.rows, ∀ s ∈ row, IsCell s :=
  ⟨fun recovers _ inside _ member => recovers.isCell inside member, recovers_of_cells filled⟩

end Table

end PluginCompiler
