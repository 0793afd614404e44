import PluginCompiler.Proofs.Go.Declarations
import PluginCompiler.Proofs.Go.Literal

/-! What a file of generated code does with the declarations of others: the cases of a switch, the names
that they take from a package, and the routes that a server registers. -/

set_option autoImplicit false

namespace PluginCompiler.Go

open Naming (IsWord isWordChar)

variable {line name package label : String} {ls more : List String} {cs : List Char}

def lastWord (cs : List Char) : List Char := (cs.reverse.takeWhile isWordChar).reverse

/-- Between the dots of a line: a name is taken from a package if the package is the word before its
dot. -/
def selectedFrom (package : String) : List (List Char) → List String
  | before :: after :: rest =>
    if lastWord before = package.toList then
      String.ofList (after.takeWhile isWordChar) :: selectedFrom package (after :: rest)
    else selectedFrom package (after :: rest)
  | _ => []

def selected (package line : String) : List String := selectedFrom package (line.toList.splitOn '.')

theorem splitOn_cons_of_ne {sep c : Char} (other : c ≠ sep) (cs : List Char) :
    ∃ first rest, cs.splitOn sep = first :: rest ∧ (c :: cs).splitOn sep = (c :: first) :: rest := by
  obtain ⟨first, rest, parts⟩ := List.exists_cons_of_ne_nil (List.splitOn_ne_nil sep cs)
  refine ⟨first, rest, parts, ?_⟩
  rw [List.splitOn_cons_eq_if_modifyHead, if_neg (by simpa using other), parts]
  rfl

theorem lastWord_cons {c : Char} (other : isWordChar c = false) (cs : List Char) :
    lastWord (c :: cs) = lastWord cs := by
  rw [lastWord, lastWord, List.reverse_cons, List.takeWhile_append]
  split
  · next whole =>
    rw [(List.takeWhile_prefix isWordChar).eq_of_length whole]
    simp [other]
  · rfl

theorem selected_indent (package line : String) : selected package ("\t" ++ line) = selected package line := by
  obtain ⟨first, rest, parts, longer⟩ := splitOn_cons_of_ne (by decide : '\t' ≠ '.') line.toList
  have chars : ("\t" ++ line).toList = '\t' :: line.toList := by simp
  rw [selected, selected, chars, longer, parts]
  cases rest with
  | nil => rfl
  | cons after rest => rw [selectedFrom, selectedFrom, lastWord_cons (by decide)]

theorem selected_literal (none_ : selectedFrom package (cs.splitOn '.') = []) :
    selected package (String.ofList cs) = [] := by
  rw [selected, String.toList_ofList, none_]

theorem selected_append_literal {ds : List Char}
    (none_ : selectedFrom package ((cs ++ ds).splitOn '.') = []) :
    selected package (String.ofList cs ++ String.ofList ds) = [] := by
  rw [selected, String.toList_append, String.toList_ofList, String.toList_ofList, none_]

/-- A line with one name of a package, between texts without other dots. The end of the name may be
part of the text after it. -/
theorem selected_append {ds suffix : List Char} (word : IsWord name)
    (dot : cs.getLast? = some '.') (before : '.' ∉ cs.dropLast) (own : lastWord cs.dropLast = package.toList)
    (after : '.' ∉ ds) (taken : ds.takeWhile isWordChar = suffix) :
    selected package (String.ofList cs ++ name ++ String.ofList ds) = [name ++ String.ofList suffix] := by
  have chars : (String.ofList cs ++ name ++ String.ofList ds).toList =
      cs.dropLast ++ '.' :: (name.toList ++ ds) := by
    obtain ⟨front, ended⟩ := List.getLast?_eq_some_iff.mp dot
    simp [ended]
  have whole : '.' ∉ name.toList ++ ds := by
    rw [List.mem_append, not_or]
    exact ⟨word.not_mem (by decide), after⟩
  have named : String.ofList (name.toList ++ suffix) = name ++ String.ofList suffix := by
    rw [String.ofList_append, String.ofList_toList]
  rw [selected, chars, List.splitOn_append_cons_self_of_not_mem before, List.splitOn_eq_singleton whole,
    selectedFrom, if_pos own, List.takeWhile_append_of_pos word, taken, named]
  rfl

structure Case where
  label : String
  body : List String
  deriving DecidableEq, Repr

def caseLabel? (line : String) : Option String :=
  match "\tcase ".toList.isPrefixOf? line.toList with
  | some cs => if cs.getLast? = some ':' then some (String.ofList cs.dropLast) else none
  | none => none

/-- A case goes on up to the next label. -/
def casesOf : List String → List Case
  | [] => []
  | l :: ls => match caseLabel? l with
    | some label => ⟨label, ls.takeWhile fun l => (caseLabel? l).isNone⟩ :: casesOf ls
    | none => casesOf ls

def cases (subject : String) (ls : List String) : List Case :=
  casesOf (enclosed ("\tswitch " ++ subject ++ " \x7b") "\t\x7d" ls)

def Case.selected (package : String) (c : Case) : List String := c.body.flatMap (Go.selected package)

theorem caseLabel?_label (label : String) : caseLabel? ("\t" ++ ("case " ++ label ++ ":")) = some label := by
  have chars : ("\t" ++ ("case " ++ label ++ ":")).toList = "\tcase ".toList ++ (label.toList ++ [':']) := by
    simp
  rw [caseLabel?, chars, Text.isPrefixOf?_append]
  simp

theorem caseLabel?_of_lead (other : lead line ≠ some 'c') : caseLabel? ("\t" ++ line) = none := by
  have chars : ("\t" ++ line).toList = '\t' :: line.toList := by simp
  have absent : "\tcase ".toList.isPrefixOf? ('\t' :: line.toList) = none :=
    isPrefixOf?_of_lead "ase ".toList other
  rw [caseLabel?, chars, absent]

theorem casesOf_append (none_ : ∀ l ∈ ls, caseLabel? l = none) (more : List String) :
    casesOf (ls ++ more) = casesOf more := by
  induction ls with
  | nil => rfl
  | cons l ls ih =>
    obtain ⟨first, later⟩ := List.forall_mem_cons.mp none_
    rw [List.cons_append, casesOf, first]
    exact ih later

/-- A case is read with the lines that are written for it, each of which is further in. -/
theorem casesOf_indent {α : Type} {label : α → String} {written : α → List String} (as : List α)
    (made : ∀ a, ∃ body, written a = ("case " ++ label a ++ ":") :: Emit.indent body) :
    casesOf (Emit.indent (as.flatMap written)) =
      as.map fun a => ⟨label a, Emit.indent (written a).tail⟩ := by
  -- A line of a body is two steps in, and a label one.
  have inner (body : List String) : ∀ l ∈ Emit.indent (Emit.indent body), caseLabel? l = none := by
    intro l member
    obtain ⟨l, inside, rfl⟩ := List.mem_map.mp member
    apply caseLabel?_of_lead
    rw [lead_of_mem_indent inside]
    decide
  have stop (as : List α) :
      (Emit.indent (as.flatMap written)).takeWhile (fun l => (caseLabel? l).isNone) = [] := by
    cases as with
    | nil => rfl
    | cons a as =>
      obtain ⟨body, lines⟩ := made a
      rw [List.flatMap_cons, lines, Emit.indent, List.cons_append, List.map_cons,
        List.takeWhile_cons_of_neg (by simp [caseLabel?_label])]
  -- A case takes lines up to the next label, which is the first line of the next one.
  induction as with
  | nil => rfl
  | cons a as ih =>
    obtain ⟨body, lines⟩ := made a
    have split : Emit.indent ((a :: as).flatMap written) = ("\t" ++ ("case " ++ label a ++ ":")) ::
        (Emit.indent (Emit.indent body) ++ Emit.indent (as.flatMap written)) := by
      rw [List.flatMap_cons, lines]
      simp [Emit.indent]
    have taken : (Emit.indent (Emit.indent body) ++ Emit.indent (as.flatMap written)).takeWhile
        (fun l => (caseLabel? l).isNone) = Emit.indent (Emit.indent body) := by
      rw [List.takeWhile_append_of_pos fun l member => by rw [inner body l member]; rfl, stop,
        List.append_nil]
    rw [split, casesOf, caseLabel?_label]
    dsimp only
    rw [taken, casesOf_append (inner body), ih, List.map_cons, lines, List.tail_cons]

def route? (line : String) : Option (String × String) :=
  match "\tmux.HandleFunc(".toList.isPrefixOf? line.toList with
  | none => none
  | some cs =>
    match literal? cs with
    | none => none
    | some (pattern, rest) =>
      match ", ".toList.isPrefixOf? rest with
      | none => none
      | some end_ =>
        if end_.getLast? = some ')' ∧ end_.dropLast.all isWordChar = true then
          some (pattern, String.ofList end_.dropLast)
        else none

def registrations (ls : List String) : List String :=
  (enclosed "func New() *http.Server \x7b" "\x7d" ls).filter fun l =>
    "\tmux.HandleFunc(".toList.isPrefixOf l.toList

def routes (ls : List String) : List (String × String) := (registrations ls).filterMap route?

theorem route?_eq_some_iff {pattern function : String} (word : IsWord function)
    (chars : line.toList = "\tmux.HandleFunc(".toList ++
      ((Emit.quoted pattern).toList ++ (", ".toList ++ (function.toList ++ [')'])))) :
    route? line = some (pattern, function) ↔ IsVerbatim pattern := by
  rw [route?, chars, Text.isPrefixOf?_append]
  dsimp only
  constructor
  · intro registered
    split at registered
    · cases registered
    · next read rest literal =>
      split at registered
      · cases registered
      · next end_ dropped =>
        split at registered
        · next shape =>
          cases registered
          rw [Text.isPrefixOf?_eq_some] at dropped
          obtain ⟨front, ended⟩ := List.getLast?_eq_some_iff.mp shape.1
          rw [← literal?_quoted_iff, literal, dropped, ended]
          simp
        · cases registered
  · intro verbatim
    have all : function.toList.all isWordChar = true := List.all_eq_true.mpr word
    rw [(literal?_quoted_iff pattern _).mpr verbatim]
    dsimp only
    rw [Text.isPrefixOf?_append]
    simp [all]

end PluginCompiler.Go
