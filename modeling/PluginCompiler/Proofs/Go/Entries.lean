import PluginCompiler.Proofs.Emit.Lines
import PluginCompiler.Proofs.Go.Declarations

/-! Declarations with their comments. In a record and in a group of constants every line declares one
thing or is a comment on the declaration after it. A reader that takes nothing else tells what all of the
lines are for. -/

set_option autoImplicit false

namespace PluginCompiler.Go

open Naming (IsWord)

structure Noted (α : Type) where
  notes : List String
  item : α
  deriving DecidableEq, Repr

variable {α β : Type} {read : String → Option α} {line name type value text : String}
  {ls more : List String} {entries others : List (Noted α)} {e : Noted α}

def note? (line : String) : Option String :=
  ("\t// ".toList.isPrefixOf? line.toList).map String.ofList

inductive Entries (read : String → Option α) : List String → List (Noted α) → Prop where
  | nil : Entries read [] []
  | cons {e : Noted α} {line : String} {ls : List String} {entries : List (Noted α)}
      (plain : note? line = none) (declares : read line = some e.item)
      (rest : Entries read ls entries) :
      Entries read (e.notes.map ("\t// " ++ ·) ++ line :: ls) (e :: entries)

/-- The declarations on the lines, in their order. No comment may come last. -/
def noted (read : String → Option α) : List String → Option (List (Noted α))
  | [] => some []
  | l :: ls =>
    match note? l with
    | some text =>
      match noted read ls with
      | some (e :: entries) => some (⟨text :: e.notes, e.item⟩ :: entries)
      | _ => none
    | none =>
      match read l with
      | some item => (noted read ls).map (⟨[], item⟩ :: ·)
      | none => none

theorem note?_eq_some : note? line = some text ↔ line = "\t// " ++ text := by
  rw [note?, Option.map_eq_some_iff]
  constructor
  · rintro ⟨cs, dropped, rfl⟩
    exact String.toList_inj.mp (by simp [Text.isPrefixOf?_eq_some.mp dropped])
  · rintro rfl
    refine ⟨text.toList, ?_, String.ofList_toList⟩
    rw [String.toList_append, Text.isPrefixOf?_append]

theorem noted_comments (plain : note? line = none) (declares : read line = some e.item)
    (notes : List String) (ls : List String) :
    noted read (notes.map ("\t// " ++ ·) ++ line :: ls) =
      (noted read ls).map (⟨notes, e.item⟩ :: ·) := by
  induction notes with
  | nil => rw [List.map_nil, List.nil_append, noted, plain, declares]
  | cons text notes ih =>
    rw [List.map_cons, List.cons_append, noted, note?_eq_some.mpr rfl, ih]
    cases noted read ls <;> rfl

theorem noted_eq_some : noted read ls = some entries ↔ Entries read ls entries := by
  constructor
  · intro taken
    induction ls generalizing entries with
    | nil =>
      cases taken
      exact .nil
    | cons l ls ih =>
      rw [noted] at taken
      split at taken
      · next text comment =>
        split at taken
        · next e others later =>
          cases taken
          -- The comment joins those of the declaration that the other lines start with.
          generalize same : e :: others = all at later
          cases ih later with
          | nil => cases same
          | cons plain declares rest =>
            cases same
            rw [note?_eq_some.mp comment]
            exact .cons (e := ⟨text :: e.notes, e.item⟩) plain declares rest
        · cases taken
      · next plain =>
        split at taken
        · next item declares =>
          obtain ⟨others, later, rfl⟩ := Option.map_eq_some_iff.mp taken
          exact .cons (e := ⟨[], item⟩) plain declares (ih later)
        · cases taken
  · intro written
    induction written with
    | nil => rfl
    | cons plain declares _ ih => rw [noted_comments plain declares, ih, Option.map_some]

namespace Entries

theorem single (plain : note? line = none) (declares : read line = some e.item) :
    Entries read (e.notes.map ("\t// " ++ ·) ++ [line]) [e] :=
  .cons plain declares .nil

theorem append (first : Entries read ls entries) (second : Entries read more others) :
    Entries read (ls ++ more) (entries ++ others) := by
  induction first with
  | nil => exact second
  | cons plain declares _ ih =>
    rw [List.append_assoc, List.cons_append, List.cons_append]
    exact .cons plain declares ih

theorem flatMap {as : List β} {written : β → List String} {found : β → List (Noted α)}
    (each : ∀ a ∈ as, Entries read (written a) (found a)) :
    Entries read (as.flatMap written) (as.flatMap found) := by
  induction as with
  | nil => exact .nil
  | cons a as ih =>
    obtain ⟨first, later⟩ := List.forall_mem_cons.mp each
    exact first.append (ih later)

end Entries

def members (name : String) (ls : List String) : Option (List (Noted Field)) :=
  noted member? (enclosed ("type " ++ name ++ " struct \x7b") "\x7d" ls)

structure Constant where
  name : String
  value : String
  deriving DecidableEq, Repr

def constant? (line : String) : Option Constant :=
  match pieces line with
  | ('\t' :: name) :: ['='] :: value =>
    some ⟨String.ofList name, String.ofList ([' '].intercalate value)⟩
  | _ => none

/-- The lines after what the first line that is `head` and the next one that is `close` enclose. -/
def following (head close : String) (ls : List String) : List String :=
  (((ls.dropWhile (· != head)).drop 1).dropWhile (· != close)).drop 1

theorem following_append {head close : String} {before inside after : List String} (absent : head ∉ before)
    (within : close ∉ inside) :
    following head close (before ++ (head :: (inside ++ close :: after))) = after := by
  rw [following, List.dropWhile_append_of_pos (bne_of_not_mem absent),
    List.dropWhile_cons_of_neg (by simp), List.drop_succ_cons, List.drop_zero,
    List.dropWhile_append_of_pos (bne_of_not_mem within), List.dropWhile_cons_of_neg (by simp),
    List.drop_succ_cons, List.drop_zero]

def constants (ls : List String) : Option (List (Noted Constant)) :=
  noted constant? (enclosed "const (" ")" ls)

theorem note?_of_head {cs : List Char} (chars : line.toList = '\t' :: cs) (other : cs.head? ≠ some '/') :
    note? line = none := by
  have absent : "\t// ".toList.isPrefixOf? line.toList = none := by
    rw [chars]
    cases cs with
    | nil => rfl
    | cons c cs =>
      have apart : '/' ≠ c := fun same => other (by rw [List.head?_cons, same])
      simp [List.isPrefixOf?, apart]
  rw [note?, absent, Option.map_none]

theorem note?_of_word (word : IsWord name) (rest : List Char)
    (chars : line.toList = '\t' :: (name.toList ++ ' ' :: rest)) : note? line = none := by
  refine note?_of_head chars ?_
  cases own : name.toList with
  | nil => simp
  | cons c cs =>
    rintro ⟨⟩
    exact word.not_mem (c := '/') (by decide) (by simp [own])

theorem constant?_definition (word : IsWord name) :
    constant? ("\t" ++ (name ++ " = " ++ value)) = some ⟨name, value⟩ := by
  have chars : ("\t" ++ (name ++ " = " ++ value)).toList =
      ('\t' :: name.toList) ++ ' ' :: (['='] ++ ' ' :: value.toList) := by simp
  have first : ' ' ∉ '\t' :: name.toList := by
    simp [blank_not_mem word]
  have second : ' ' ∉ ['='] := by decide
  rw [constant?, pieces, chars, List.splitOn_append_cons_self_of_not_mem first,
    List.splitOn_append_cons_self_of_not_mem second]
  simp [List.intercalate_splitOn]

end PluginCompiler.Go
