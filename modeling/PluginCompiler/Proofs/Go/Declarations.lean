import PluginCompiler.Proofs.Go.Reading

/-! Files of generated code beside each other: the package that a file belongs to, the records and
functions that it declares there, and what it imports. -/

set_option autoImplicit false

namespace PluginCompiler.Go

open Naming (IsWord)

variable {line name package : String} {ls more : List String}

theorem isPrefixOf?_of_lead {c : Char} (start : List Char) (other : lead line ≠ some c) :
    (c :: start).isPrefixOf? line.toList = none := by
  rw [lead] at other
  cases chars : line.toList with
  | nil => rfl
  | cons d cs =>
    have apart : c ≠ d := by
      rintro rfl
      exact other (by simp [chars])
    simp [List.isPrefixOf?, apart]

def packageClause? (line : String) : Option String :=
  ("package ".toList.isPrefixOf? line.toList).map String.ofList

def package? (ls : List String) : Option String := ls.findSome? packageClause?

theorem package?_cons_of_lead (other : lead line ≠ some 'p') : package? (line :: ls) = package? ls := by
  have absent : packageClause? line = none := by
    rw [packageClause?, Option.map_eq_none_iff]
    exact isPrefixOf?_of_lead _ other
  rw [package?, List.findSome?_cons, absent]
  rfl

def recordName? (line : String) : Option String :=
  match pieces line with
  | [['t', 'y', 'p', 'e'], name, ['s', 't', 'r', 'u', 'c', 't'], ['\x7b']] => some (String.ofList name)
  | _ => none

def declaredRecords (ls : List String) : List String := ls.filterMap recordName?

/-- The name of a function. A method has its receiver before its name and is none. -/
def functionName? (line : String) : Option String :=
  match "func ".toList.isPrefixOf? line.toList with
  | some cs => match cs.takeWhile (· != '(') with
    | [] => none
    | name => some (String.ofList name)
  | none => none

def declaredFunctions (ls : List String) : List String := ls.filterMap functionName?

theorem recordName?_head (whole : ' ' ∉ name.toList) :
    recordName? ("type " ++ name ++ " struct" ++ " \x7b") = some name := by
  have chars : ("type " ++ name ++ " struct" ++ " \x7b").toList =
      "type".toList ++ ' ' :: (name.toList ++ ' ' :: "struct \x7b".toList) := by simp
  have type : ' ' ∉ "type".toList := by decide
  have rest : "struct \x7b".toList.splitOn ' ' = ["struct".toList, "\x7b".toList] := by decide
  rw [recordName?, pieces, chars, List.splitOn_append_cons_self_of_not_mem type,
    List.splitOn_append_cons_self_of_not_mem whole, rest]
  simp

theorem recordName?_of_lead (other : lead line ≠ some 't') : recordName? line = none := by
  rw [recordName?]
  split
  · next split => exact absurd (lead_of_pieces split) other
  · rfl

theorem functionName?_head (named : name ≠ "") (whole : '(' ∉ name.toList) (rest : List Char)
    (chars : line.toList = "func ".toList ++ (name.toList ++ '(' :: rest)) :
    functionName? line = some name := by
  -- The name ends at the first parenthesis, and has none.
  have taken : (name.toList ++ '(' :: rest).takeWhile (· != '(') = name.toList := by
    have inside : ∀ c ∈ name.toList, (c != '(') = true := by
      intro c member
      rw [bne_iff_ne]
      rintro rfl
      exact whole member
    rw [List.takeWhile_append_of_pos inside, List.takeWhile_cons_of_neg (by simp), List.append_nil]
  have filled : name.toList ≠ [] := by simpa using named
  rw [functionName?, chars, Text.isPrefixOf?_append]
  dsimp only
  rw [taken]
  split
  · next empty => exact absurd empty filled
  · rw [String.ofList_toList]

theorem functionName?_of_lead (other : lead line ≠ some 'f') : functionName? line = none := by
  have absent : "func ".toList.isPrefixOf? line.toList = none := isPrefixOf?_of_lead _ other
  rw [functionName?, absent]

def imported? (line : String) : Option String :=
  (['\t'].isPrefixOf? line.toList).map String.ofList

def imports (ls : List String) : List String := (enclosed "import (" ")" ls).filterMap imported?

theorem imported?_indent (entry : String) : imported? ("\t" ++ entry) = some entry := by
  have tab : "\t".toList = ['\t'] := rfl
  rw [imported?, String.toList_append, tab, Text.isPrefixOf?_append, Option.map_some,
    String.ofList_toList]

theorem imported_indent (entries : List String) :
    (Emit.indent entries).filterMap imported? = entries := by
  have each : imported? ∘ ("\t" ++ ·) = some := funext imported?_indent
  rw [Emit.indent, List.filterMap_map, each, List.filterMap_some]

/-- What is left of a type after its pointer and its signs of lists. -/
def baseOf : List Char → List Char
  | '*' :: cs => baseOf cs
  | '[' :: ']' :: cs => baseOf cs
  | cs => cs

def base (type : String) : String := String.ofList (baseOf type.toList)

def qualified? (package type : String) : Option String :=
  ((package ++ ".").toList.isPrefixOf? (baseOf type.toList)).map String.ofList

def unqualified (type : String) : String :=
  String.ofList (((type.toList.splitOn '.').getLast?).getD [])

/-- A type that stands for itself in a record has its own name there. -/
def embedded? (line : String) : Option Field :=
  match pieces line with
  | [('\t' :: type)] => some ⟨unqualified (String.ofList type), String.ofList type, ""⟩
  | _ => none

/-- A field, with or without a name of its own. -/
def member? (line : String) : Option Field := (field? line).or (embedded? line)

def declaredMembers (name : String) (ls : List String) : List Field :=
  (enclosed ("type " ++ name ++ " struct \x7b") "\x7d" ls).filterMap member?

theorem embedded?_of_blank (front back : List Char) (whole : ' ' ∉ front)
    (chars : line.toList = front ++ ' ' :: back) : embedded? line = none := by
  rw [embedded?, pieces, chars, List.splitOn_append_cons_self_of_not_mem whole]
  split
  · next single =>
    rw [List.cons.injEq] at single
    exact absurd single.2 (List.splitOn_ne_nil _ _)
  · rfl

theorem member?_of_embedded {type : String} (whole : ' ' ∉ type.toList) :
    member? ("\t" ++ type) = some ⟨unqualified type, type, ""⟩ := by
  have chars : ("\t" ++ type).toList = '\t' :: type.toList := by simp
  have single : pieces ("\t" ++ type) = ['\t' :: type.toList] := by
    rw [pieces, chars]
    exact List.splitOn_eq_singleton (by simpa using whole)
  have own : embedded? ("\t" ++ type) = some ⟨unqualified type, type, ""⟩ := by
    rw [embedded?, single]
    simp only [String.ofList_toList]
  have unnamed : field? ("\t" ++ type) = none := by
    rw [field?, single]
    rfl
  rw [member?, unnamed, own, Option.none_or]

theorem Encloses.declaredMembers_eq {body : List String}
    (encloses : Encloses ("type " ++ name ++ " struct") body ls) :
    declaredMembers name ls = (Emit.indent body).filterMap member? := by
  rw [declaredMembers, recordHead_eq, encloses.enclosed_eq]

end PluginCompiler.Go
