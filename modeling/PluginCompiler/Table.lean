import PluginCompiler.Json.Compact

/-! Tables of texts, and the two forms in which they are written for other programs. -/

set_option autoImplicit false

namespace PluginCompiler

structure Table where
  headers : List String
  rows : List (List String)
  title : Option String := none
  deriving DecidableEq, Repr, Inhabited

namespace Table

def plainLine (cells : List String) : String := "\t".intercalate cells

def plainLines (t : Table) : List String := (t.headers :: t.rows).map plainLine

/-- An entry under a name; a name that is there keeps its place and takes the new cell. -/
def putCell (name cell : String) : List (String × String) → List (String × String)
  | [] => [(name, cell)]
  | (n, c) :: rest => if n = name then (n, cell) :: rest else (n, c) :: putCell name cell rest

/-- A row by header. Cells without a header and headers without a cell are left out, and of equal
headers the last one counts. -/
def entries (headers row : List String) : List (String × String) :=
  (headers.zip row).foldl (fun done (name, cell) => putCell name cell done) []

def indented (n : Nat) (s : String) : String := String.ofList (List.replicate n ' ') ++ s

def commaLines : List String → List String
  | [] => []
  | [l] => [l]
  | l :: rest => (l ++ ",") :: commaLines rest

def objectText (es : List (String × String)) : String :=
  if es.isEmpty then indented 2 "\x7b\x7d"
  else
    let line := fun ((name, cell) : String × String) =>
      indented 4 (Json.quote name ++ ": " ++ Json.quote cell)
    "\n".intercalate ([indented 2 "\x7b"] ++ commaLines (es.map line) ++ [indented 2 "\x7d"])

def json (t : Table) : String :=
  if t.rows.isEmpty then "[]"
  else
    "\n".intercalate
      (["["] ++ commaLines (t.rows.map fun row => objectText (entries t.headers row)) ++ ["]"])

end Table

end PluginCompiler
