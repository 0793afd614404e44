import PluginCompiler.Go.Type
import PluginCompiler.Proofs.Emit.Layout
import PluginCompiler.Proofs.Go.Expression

/-! Generated code read back: the lines of a file, the fields that a record type declares, the names
of constants, what a method returns and the functions that are defined. A declaration encloses the lines
up to the first bracket at the margin. -/

set_option autoImplicit false

namespace PluginCompiler.Go

open Naming (IsWord)

def lines (text : String) : List String := (text.toList.splitOn '\n').dropLast.map String.ofList

def IsLine (s : String) : Prop := '\n' ∉ s.toList

instance (s : String) : Decidable (IsLine s) := inferInstanceAs (Decidable ('\n' ∉ s.toList))

variable {s t head close line : String} {ls before inside after : List String}

@[simp] theorem isLine_append : IsLine (s ++ t) ↔ IsLine s ∧ IsLine t := by
  simp [IsLine]

theorem isLine_of_isWord (word : IsWord s) : IsLine s := word.not_mem (by decide)

/-- A literal has its characters at once; what it would decode to need not be computed. -/
theorem isLine_literal {cs : List Char} (absent : cs.all (· != '\n') = true) :
    IsLine (String.ofList cs) := by
  rw [IsLine, String.toList_ofList]
  intro member
  simpa using List.all_eq_true.mp absent _ member

theorem isLine_append_literal {back : List Char} (absent : back.all (· != '\n') = true) :
    IsLine (s ++ String.ofList back) ↔ IsLine s := by
  rw [isLine_append, and_iff_left (isLine_literal absent)]

theorem isLine_between {front back : List Char} (absent : front.all (· != '\n') = true)
    (absent' : back.all (· != '\n') = true) :
    IsLine (String.ofList front ++ s ++ String.ofList back) ↔ IsLine s := by
  rw [isLine_append_literal absent', isLine_append, and_iff_right (isLine_literal absent)]

theorem splitOn_unlines (ls : List String) :
    (Emit.unlines ls).toList.splitOn '\n' = ls.flatMap (·.toList.splitOn '\n') ++ [[]] := by
  induction ls with
  | nil => rfl
  | cons l ls ih =>
    have chars : (Emit.unlines (l :: ls)).toList = l.toList ++ '\n' :: (Emit.unlines ls).toList := by
      simp [Emit.unlines]
    rw [chars, List.splitOn_append_cons_self, ih, List.flatMap_cons, List.append_assoc]

/-- A line that is written is read in pieces, one for each break in it and one more. -/
theorem lines_unlines_eq (ls : List String) :
    lines (Emit.unlines ls) = ls.flatMap fun l => (l.toList.splitOn '\n').map String.ofList := by
  rw [lines, splitOn_unlines, List.dropLast_concat, List.map_flatMap]

theorem pieces_of_isLine (single : IsLine s) : (s.toList.splitOn '\n').map String.ofList = [s] := by
  rw [List.splitOn_eq_singleton single, List.map_singleton, String.ofList_toList]

theorem lines_unlines (single : ∀ l ∈ ls, IsLine l) : lines (Emit.unlines ls) = ls := by
  have each : ∀ l ∈ ls, (l.toList.splitOn '\n').map String.ofList = [l] :=
    fun l member => pieces_of_isLine (single l member)
  rw [lines_unlines_eq, List.flatMap_congr each, List.flatMap_singleton']

theorem lines_unlines_broken {before after : List String} {t : String}
    (single : ∀ l ∈ before ++ s :: t :: after, IsLine l) :
    lines (Emit.unlines (before ++ (s ++ "\n" ++ t) :: after)) = before ++ s :: t :: after := by
  have same : Emit.unlines (before ++ (s ++ "\n" ++ t) :: after) =
      Emit.unlines (before ++ s :: t :: after) := by
    simp [Emit.unlines, String.append_assoc]
  rw [same, lines_unlines single]

theorem not_mem_of_mem_splitOn {sep : Char} {cs part : List Char} (member : part ∈ cs.splitOn sep) :
    sep ∉ part := by
  induction cs generalizing part with
  | nil =>
    rw [List.splitOn_nil, List.mem_singleton] at member
    simp [member]
  | cons c cs ih =>
    obtain ⟨first, more, parts⟩ := List.exists_cons_of_ne_nil (List.splitOn_ne_nil sep cs)
    rw [List.splitOn_cons_eq_if_modifyHead, parts] at member
    rw [parts] at ih
    split at member
    · rcases List.mem_cons.mp member with rfl | later
      · simp
      · exact ih later
    · next other =>
      rcases List.mem_cons.mp member with rfl | later
      · have apart : sep ≠ c := fun same => other (by simp [same])
        simp [apart, ih List.mem_cons_self]
      · exact ih (List.mem_cons_of_mem first later)

theorem isLine_of_mem_lines {text : String} (member : s ∈ lines text) : IsLine s := by
  obtain ⟨cs, inside, rfl⟩ := List.mem_map.mp member
  rw [IsLine, String.toList_ofList]
  exact not_mem_of_mem_splitOn (List.mem_of_mem_dropLast inside)

theorem mem_lines_iff (member : s ∈ ls) : s ∈ lines (Emit.unlines ls) ↔ IsLine s := by
  constructor
  · exact isLine_of_mem_lines
  · intro single
    rw [lines_unlines_eq, List.mem_flatMap]
    exact ⟨s, member, by simp [pieces_of_isLine single]⟩

/-- The lines after the first that is `head`, up to one that is `close`. -/
def enclosed (head close : String) (ls : List String) : List String :=
  ((ls.dropWhile (· != head)).drop 1).takeWhile (· != close)

theorem bne_of_not_mem (absent : line ∉ ls) : ∀ l ∈ ls, (l != line) = true := by
  intro l member
  rw [bne_iff_ne]
  rintro rfl
  exact absent member

theorem enclosed_of_not_mem (absent : head ∉ ls) : enclosed head close ls = [] := by
  rw [enclosed, ← List.append_nil ls, List.dropWhile_append_of_pos (bne_of_not_mem absent)]
  rfl

theorem enclosed_append (absent : head ∉ before) (within : close ∉ inside) :
    enclosed head close (before ++ (head :: (inside ++ close :: after))) = inside := by
  rw [enclosed, List.dropWhile_append_of_pos (bne_of_not_mem absent),
    List.dropWhile_cons_of_neg (by simp), List.drop_one, List.tail_cons,
    List.takeWhile_append_of_pos (bne_of_not_mem within), List.takeWhile_cons_of_neg (by simp),
    List.append_nil]

def pieces (line : String) : List (List Char) := line.toList.splitOn ' '

structure Field where
  name : String
  type : String
  tag : String
  deriving DecidableEq, Repr

/-- A field is declared by its name, its type and its tag, with a blank between them. A comment declares
nothing. -/
def field? (line : String) : Option Field :=
  match pieces line with
  | ('\t' :: name) :: type :: tag =>
    if name = ['/', '/'] then none
    else some ⟨String.ofList name, String.ofList type, String.ofList ([' '].intercalate tag)⟩
  | _ => none

def declaredFields (name : String) (ls : List String) : List Field :=
  (enclosed ("type " ++ name ++ " struct \x7b") "\x7d" ls).filterMap field?

def constantName? (line : String) : Option String :=
  match pieces line with
  | ('\t' :: name) :: ['='] :: _ => some (String.ofList name)
  | _ => none

def declaredConstants (ls : List String) : List String :=
  (enclosed "const (" ")" ls).filterMap constantName?

def returned? (head : String) (ls : List String) : Option String :=
  match enclosed (head ++ " \x7b") "\x7d" ls with
  | [line] => ("\treturn ".toList.isPrefixOf? line.toList).map String.ofList
  | _ => none

def definitions (name : String) (ls : List String) : Nat :=
  ls.countP fun l => ("func " ++ name ++ "(").toList.isPrefixOf l.toList

def lead (s : String) : Option Char := s.toList.head?

theorem lead_literal (c : Char) (cs : List Char) : lead (String.ofList (c :: cs)) = some c := by
  rw [lead, String.toList_ofList, List.head?_cons]

theorem lead_append {c : Char} (own : lead s = some c) (t : String) : lead (s ++ t) = some c := by
  rw [lead, List.head?_eq_some_iff] at own
  obtain ⟨cs, chars⟩ := own
  rw [lead, String.toList_append, chars, List.cons_append, List.head?_cons]

theorem lead_of_pieces {c : Char} {word : List Char} {more : List (List Char)}
    (split : pieces line = (c :: word) :: more) : lead line = some c := by
  have whole : [' '].intercalate (pieces line) = line.toList := List.intercalate_splitOn ' '
  rw [lead, ← whole, split]
  cases more <;> rfl

theorem lead_of_mem_indent (member : line ∈ Emit.indent ls) : lead line = some '\t' := by
  obtain ⟨l, _, rfl⟩ := List.mem_map.mp member
  simp [lead]

theorem braces_eq (head : String) (body : List String) :
    Emit.braces head body = (head ++ " \x7b") :: (Emit.indent body ++ ["\x7d"]) := by
  simp [Emit.braces, Emit.bracesOf, Emit.paragraphs, List.intercalate_singleton]

theorem parens_eq (head : String) (body : List String) :
    Emit.parens head body = (head ++ " (") :: (Emit.indent body ++ [")"]) := by
  simp [Emit.parens, Emit.parensOf, Emit.paragraphs, List.intercalate_singleton]

theorem close_not_mem_indent (close : String) (other : lead close ≠ some '\t') :
    close ∉ Emit.indent ls :=
  fun member => other (lead_of_mem_indent member)

theorem enclosed_parens (absent : head ++ " (" ∉ before) (body : List String) :
    enclosed (head ++ " (") ")" (before ++ (Emit.parens head body ++ after)) = Emit.indent body := by
  have within : ")" ∉ Emit.indent body := close_not_mem_indent _ (by decide)
  rw [parens_eq, List.cons_append, List.append_assoc]
  exact enclosed_append absent within

theorem recordHead_eq (name : String) :
    "type " ++ name ++ " struct \x7b" = "type " ++ name ++ " struct" ++ " \x7b" :=
  String.toList_inj.mp (by simp)

/-- A declaration is among the lines, and none before it has its head. -/
def Encloses (head : String) (body ls : List String) : Prop :=
  ∃ before after, ls = before ++ (Emit.braces head body ++ after) ∧ head ++ " \x7b" ∉ before

variable {body more : List String}

theorem encloses_braces (absent : head ++ " \x7b" ∉ ls) (body : List String) :
    Encloses head body (ls ++ Emit.braces head body) :=
  ⟨ls, [], by simp, absent⟩

namespace Encloses

theorem append (encloses : Encloses head body ls) : Encloses head body (ls ++ more) := by
  obtain ⟨before, after, rfl, absent⟩ := encloses
  exact ⟨before, after ++ more, by simp, absent⟩

theorem enclosed_eq (encloses : Encloses head body ls) :
    enclosed (head ++ " \x7b") "\x7d" ls = Emit.indent body := by
  obtain ⟨before, after, rfl, absent⟩ := encloses
  have within : "\x7d" ∉ Emit.indent body := close_not_mem_indent _ (by decide)
  rw [braces_eq, List.cons_append, List.append_assoc]
  exact enclosed_append absent within

theorem returned?_eq {expression : String}
    (encloses : Encloses head ["return " ++ expression] ls) : returned? head ls = some expression := by
  have chars : ("\t" ++ ("return " ++ expression)).toList = "\treturn ".toList ++ expression.toList := by
    simp
  rw [returned?, encloses.enclosed_eq, Emit.indent, List.map_singleton]
  dsimp only
  rw [chars, Text.isPrefixOf?_append, Option.map_some, String.ofList_toList]

theorem head_mem (encloses : Encloses head body ls) : head ++ " \x7b" ∈ ls := by
  obtain ⟨before, after, rfl, _⟩ := encloses
  rw [braces_eq]
  simp

theorem declaredFields_eq {name : String} (encloses : Encloses ("type " ++ name ++ " struct") body ls) :
    declaredFields name ls = (Emit.indent body).filterMap field? := by
  rw [declaredFields, recordHead_eq, encloses.enclosed_eq]

end Encloses

end PluginCompiler.Go
